import DataPlacement.Proofs.Configuration.HandingOver
import DataPlacement.Proofs.Device.Agreement
import DataPlacement.Proofs.Device.FirstInFirstOut
import DataPlacement.Proofs.Device.Handback

namespace DataPlacement

/-- The sum of two budgets. Budgets are words up to `most`, and a sum that is too large for a word
is the largest one. No budget stands for no limit, and so does its sum with any other. -/
def budgetSum (most : Nat) : Option Nat → Option Nat → Option Nat
  | some a, some b => some (min (a + b) most)
  | _, _ => none

section UpTo

variable {queue front rest : List LineId} {most : Nat}

/-- The entries of a list that a budget does not reach. -/
def beyond : Option Nat → List LineId → List LineId
  | none, _ => []
  | some n, ids => ids.drop n

theorem upTo_append_beyond (budget : Option Nat) (ids : List LineId) :
    upTo budget ids ++ beyond budget ids = ids := by
  cases budget with
  | none => exact List.append_nil ids
  | some n => exact List.take_append_drop n ids

theorem filter_not_mem_front (hnodup : queue.Nodup) (hsplit : front ++ rest = queue) :
    queue.filter (· ∉ front) = rest := by
  subst hsplit
  have hapart := (List.nodup_append'.1 hnodup).2.2
  have hfront : front.filter (· ∉ front) = [] := by simp [List.filter_eq_nil_iff]
  have hrest : rest.filter (· ∉ front) = rest :=
    List.filter_eq_self.2 fun id hid => by simpa using fun hmem => hapart hmem hid
  rw [List.filter_append, hfront, hrest, List.nil_append]

/-- What two budgets allow one after the other is what their sum allows at once. -/
theorem upTo_budgetSum (hmost : queue.length ≤ most) (a b : Option Nat) :
    upTo (budgetSum most a b) queue = upTo a queue ++ upTo b (beyond a queue) := by
  cases a with
  | none => cases b <;> simp [budgetSum, upTo, beyond]
  | some a =>
    cases b with
    | none => exact (List.take_append_drop a queue).symm
    | some b =>
      change queue.take (min (a + b) most) = queue.take a ++ (queue.drop a).take b
      rw [← List.take_add]
      rcases Nat.le_total (a + b) most with hle | hle
      · rw [Nat.min_eq_left hle]
      · rw [Nat.min_eq_right hle, List.take_of_length_le hmost,
          List.take_of_length_le (Nat.le_trans hmost hle)]

end UpTo

namespace Configuration

variable {c : Configuration} {s t : Configuration × Pool}

/-- The configuration without the times at which units were opened. -/
def unstamped (c : Configuration) : Configuration := { c with units := c.units.map (·.unstamped) }

theorem unit?_unstamped (c : Configuration) (u : UnitId) :
    c.unstamped.unit? u = (c.unit? u).map (·.unstamped) := by
  simp [unstamped, unit?]

theorem unstamped_updateUnit (c : Configuration) (u : UnitId) {f g : ReclaimUnit → ReclaimUnit}
    (hfg : ∀ unit, (f unit).unstamped = g unit.unstamped) :
    (c.updateUnit u f).unstamped = c.unstamped.updateUnit u g := by
  have hunits :
      (c.units.modify u f).map (·.unstamped) = (c.units.map (·.unstamped)).modify u g := by
    refine Array.ext_getElem? fun i => ?_
    simp only [Array.getElem?_map, Array.getElem?_modify]
    split
    · cases c.units[i]? <;> simp [hfg]
    · rfl
  simp [unstamped, updateUnit, hunits]

/-- The same units over the same pool, but for the times at which units were opened. -/
structure Alike (s t : Configuration × Pool) : Prop where
  units : t.1.unstamped = s.1.unstamped
  pool : t.2 = s.2

theorem Alike.refl (s : Configuration × Pool) : Alike s s := ⟨rfl, rfl⟩

/-- Whether a unit opens, and on which line, does not depend on when units were opened. -/
theorem Alike.reopen (h : Alike s t) (now now' : Nat) (o : Option UnitId) :
    Alike (reopen now s o) (reopen now' t o) := by
  obtain ⟨c, p⟩ := s
  obtain ⟨c', p'⟩ := t
  obtain ⟨hunits, rfl⟩ := h
  cases o with
  | none => exact ⟨hunits, rfl⟩
  | some u =>
    have hopened : ∀ line, (c'.updateUnit u (·.openOn line now')).unstamped =
        (c.updateUnit u (·.openOn line now)).unstamped := by
      intro line
      have hopened (c : Configuration) (now : Nat) :
          (c.updateUnit u (·.openOn line now)).unstamped =
            c.unstamped.updateUnit u fun unit => (unit.openOn line 0).unstamped :=
        c.unstamped_updateUnit u fun _ => rfl
      rw [hopened, hopened, hunits]
    have hunit : (c'.unit? u).map (·.unstamped) = (c.unit? u).map (·.unstamped) := by
      rw [← unit?_unstamped, ← unit?_unstamped, hunits]
    simp only [Configuration.reopen, rearm]
    cases hbefore : c.unit? u with
    | none =>
      rw [hbefore, Option.map_none, Option.map_eq_none_iff] at hunit
      rw [hunit]
      exact ⟨hunits, rfl⟩
    | some unit =>
      rw [hbefore, Option.map_some] at hunit
      obtain ⟨unit', hunit', hsame⟩ := Option.map_eq_some_iff.1 hunit
      rw [hunit']
      simp only [ReclaimUnit.state_eq_of_unstamped hsame]
      by_cases hfull : unit.state = .full
      · rw [if_neg (not_not.2 hfull), if_neg (not_not.2 hfull)]
        cases p'.take (some u) with
        | mk found q =>
          cases found with
          | none => exact ⟨hunits, rfl⟩
          | some line => exact ⟨hopened line, rfl⟩
      · rw [if_pos hfull, if_pos hfull]
        exact ⟨hunits, rfl⟩

theorem Alike.foldl_handOver (h : Alike s t) (now now' : Nat) (rs : List Reclaimed) :
    Alike (rs.foldl (handOver now) s) (rs.foldl (handOver now') t) := by
  induction rs generalizing s t with
  | nil => exact h
  | cons r rs ih =>
    have hreclaimed :
        Alike (s.1, s.2.reclaimed r.owner r.line) (t.1, t.2.reclaimed r.owner r.line) :=
      ⟨h.units, by rw [h.pool]⟩
    exact ih (hreclaimed.reopen now now' r.owner)

end Configuration

theorem Pool.Queued.length_le {p : Pool} {queue : List LineId} (hq : p.Queued queue) :
    queue.length ≤ p.lines.size := by
  have hknown : queue ⊆ List.range p.lines.size := by
    intro id hid
    obtain ⟨l, hline, -⟩ := hq.exists_line hid
    exact List.mem_range.2 (Array.getElem?_eq_some_iff.1 hline).1
  simpa using (hq.nodup.subperm hknown).length_le

theorem CollectorTally.add_append (t : CollectorTally) (xs ys : List Reclaimed) :
    { t.add (xs ++ ys) with passes := 0 } = { (t.add xs).add ys with passes := 0 } := by
  simp [add, Nat.add_assoc]

namespace Device

open DataPlacement.Configuration (handOver handBack reopen Returnable Alike)

variable {d : Device} {queue : List LineId} {ids : List LineId} {μ : Type} [Host.Memory μ]

/-- The lines with the owners that they have. -/
def owned (d : Device) (ids : List LineId) : List Reclaimed :=
  ids.map fun id => ⟨id, d.pool.ownerOf id⟩

theorem map_line_owned (d : Device) (ids : List LineId) : (d.owned ids).map (·.line) = ids := by
  rw [owned, List.map_map]
  exact List.map_id ids

/-! ### One collection -/

/-- The full lines of a sound device, in the order of their age. -/
theorem Sound.queued (hd : d.Sound) : d.pool.Queued (d.pool.oldest fun _ => true) where
  mem id := by
    rw [Pool.mem_oldest_iff, Pool.isSome_ageOf]
    constructor
    · exact And.left
    · rintro ⟨l, hline, hstate⟩
      exact ⟨⟨l, hline, hstate⟩, by simp [Pool.wants, hline]⟩
  sorted := by
    have hages : (d.pool.oldest fun _ => true).Pairwise fun i j => d.pool.NoLater i j ∧ i ≠ j :=
      (d.pool.pairwise_oldest _).and (d.pool.nodup_oldest _)
    refine hages.imp fun {i j} hij => ?_
    obtain ⟨⟨a, b, ha, hb, hle⟩, hne⟩ := hij
    refine ⟨a, b, ha, hb, Nat.lt_of_le_of_ne hle fun heq => hne ?_⟩
    obtain ⟨l, hl, hfull⟩ := Pool.isSome_ageOf.1 (Option.isSome_of_eq_some ha)
    obtain ⟨k, hk, hfull'⟩ := Pool.isSome_ageOf.1 (Option.isSome_of_eq_some hb)
    rw [Pool.ageOf_eq hl, Line.age?_of_full hfull] at ha
    rw [Pool.ageOf_eq hk, Line.age?_of_full hfull'] at hb
    refine hd.allocation.ages i j l k hl hk hfull hfull' ?_
    rw [Option.some.inj ha, Option.some.inj hb, heq]
  bound id age hage := by
    obtain ⟨l, hline, hfull⟩ := Pool.isSome_ageOf.1 (Option.isSome_of_eq_some hage)
    rw [Pool.ageOf_eq hline, Line.age?_of_full hfull] at hage
    obtain ⟨-, -, hle⟩ := (Line.fits_of_full hfull _ _).1 (hd.allocation.fits id l hline)
    rwa [← Option.some.inj hage]

theorem Sound.returnable (hd : d.Sound) (hnodup : ids.Nodup)
    (hfull : ∀ id ∈ ids, ∃ l, d.pool.lines[id]? = some l ∧ l.state = .full) :
    Returnable d.pool (d.owned ids) where
  nodup := by rwa [map_line_owned]
  erasable r hr := by
    obtain ⟨id, hid, rfl⟩ := List.mem_map.1 hr
    obtain ⟨l, hline, hstate⟩ := hfull id hid
    exact hd.erasable hline hstate
  owner r hr := by
    obtain ⟨id, hid, rfl⟩ := List.mem_map.1 hr
    rfl
  listed r hr := by
    obtain ⟨id, hid, rfl⟩ := List.mem_map.1 hr
    obtain ⟨l, hline, hstate⟩ := hfull id hid
    exact hd.allocation.not_mem_freeLines hline (by simp [hstate])

theorem rearmOwners_eq (now : Nat) (rs : List Reclaimed) (d : Device) :
    (rearmOwners now rs d).1 =
      d.setUnits (rs.foldl (fun s r => reopen now s r.owner) (d.configuration, d.pool)) := by
  induction rs generalizing d with
  | nil => rfl
  | cons r rs ih =>
    rw [rearmOwners, List.foldl_cons]
    cases r.owner with
    | none => exact ih d
    | some u => exact ih _

/-- The device after a collection that erased the given lines, with their owners. -/
def collected (d : Device) (rs : List Reclaimed) : Device :=
  { d.setUnits (rs.foldl (handOver d.clock.now) (d.configuration, d.pool)) with
    collector := { d.collector with tally := d.collector.tally.add rs }
    clock := d.clock.next }

/-- A collection of a sound device, oldest lines first, takes the first lines off its queue of full
lines, as many as the budget allows, and hands them over. -/
structure Collecting (d : Device) (queue : List LineId) (budget : Option Nat) : Prop where
  result : (d.gc budget).result = .ok (d.owned (upTo budget queue))
  state : (d.gc budget).state = d.collected (d.owned (upTo budget queue))
  sound : (d.gc budget).state.Sound
  policy : (d.gc budget).state.collector.policy = .oldestFirst
  queued : (d.gc budget).state.pool.Queued (beyond budget queue)
  owners : ∀ ids, (d.gc budget).state.owned ids = d.owned ids

section Collecting

variable (hd : d.Sound) (hc : d.collector.policy = .oldestFirst) (hq : d.pool.Queued queue)
  (budget : Option Nat)
include hd hc hq

theorem state_gc_of_queued : (d.gc budget).state = d.collected (d.owned (upTo budget queue)) := by
  generalize hrs : d.owned (upTo budget queue) = rs
  obtain ⟨hresult, -⟩ := pass_of_queued hd hc hq budget fun _ => true
  have hvictims := Collector.victims_of_queued hc hq budget fun _ => true
  rw [hq.filter_wants_all] at hresult hvictims
  have hreturnable : Returnable d.pool rs := by
    have hsub := List.sublist_append_left (upTo budget queue) (beyond budget queue)
    rw [upTo_append_beyond] at hsub
    rw [← hrs]
    exact hd.returnable (hq.nodup.sublist hsub) fun id hid => hq.exists_line (hsub.subset hid)
  have hids : d.collector.victims d.pool budget (fun _ => true) = rs.map (·.line) := by
    rw [hvictims, ← hrs, map_line_owned]
  have hcollect : (d.collector.collect d.pool budget fun _ => true).state =
      ({ d.collector with tally := d.collector.tally.add rs }, handBack rs d.pool) := by
    simp only [Collector.collect, hids, Configuration.eraseLines_of_returnable hreturnable]
    rfl
  have hpassed : (d.pass budget fun _ => true).state =
      { d with
        pool := handBack rs d.pool
        collector := { d.collector with tally := d.collector.tally.add rs } } := by
    rw [pass, onCollector_eq_mapState]
    simp only [Outcome.mapState, hcollect]
    rfl
  have hresult : (d.pass budget fun _ => true).result = .ok rs := hresult.trans (congrArg _ hrs)
  have hopened : _ = rs.foldl (handOver d.clock.now) (d.configuration, d.pool) :=
    Configuration.foldl_reopen_handBack hreturnable
  rw [gc, collect_of_ok budget hresult, hpassed, collected, ← hopened]
  simp only [Outcome.done, rearmOwners_eq]
  rfl

theorem collecting : Collecting d queue budget := by
  have hadvances : Advances (fun _ => True) d _ (d.gc budget).state :=
    advances_collect budget hd fun _ _ _ _ => trivial
  obtain ⟨hresult, hqueued, -⟩ := gc_of_queued hd hc hq budget
  rw [filter_not_mem_front hq.nodup (upTo_append_beyond budget queue)] at hqueued
  exact {
    result := hresult
    state := state_gc_of_queued hd hc hq budget
    sound := hadvances.sound hd
    policy := hadvances.policy.trans hc
    queued := hqueued
    owners := fun ids => by simp only [owned, hadvances.keeps.owners] }

end Collecting

/-! ### Two collections -/

/-- The device without the times at which units were opened, the number of passes, and the clock. -/
def timeless (d : Device) : Device :=
  { d with
    configuration := d.configuration.unstamped
    collector := { d.collector with tally := { d.collector.tally with passes := 0 } }
    clock := .steady 0 0 }

/-- To hand over some lines and then others is to hand over all of them, but for the time. -/
theorem timeless_collected (d : Device) (xs ys : List Reclaimed) :
    ((d.collected xs).collected ys).timeless = (d.collected (xs ++ ys)).timeless := by
  have hsame := Alike.refl (xs.foldl (handOver d.clock.now) (d.configuration, d.pool))
  have halike := hsame.foldl_handOver d.clock.now d.clock.next.now ys
  rw [← List.foldl_append] at halike
  simp only [timeless, collected, setUnits]
  rw [CollectorTally.add_append, halike.pool, halike.units]

/-- Two collections one after the other erase what one with the sum of their budgets erases, and
leave what it leaves but for the times at which units were opened: they count one more pass and read
the clock once more. In particular nothing is left to erase after a collection without a budget. -/
theorem budgets_add_up (h : Reachable μ d) (hc : d.collector.policy = .oldestFirst) {most : Nat}
    (hmost : d.geometry.lines ≤ most) (a b : Option Nat) :
    let first := d.gc a
    let second := first.state.gc b
    let both := d.gc (budgetSum most a b)
    (∃ xs ys, first.result = .ok xs ∧ second.result = .ok ys ∧ both.result = .ok (xs ++ ys)) ∧
      second.state.timeless = both.state.timeless ∧
      second.state.collector.tally.passes = both.state.collector.tally.passes + 1 ∧
      second.state.clock = both.state.clock.next ∧
      (a = none → second.result = .ok []) := by
  intro first second both
  have hd := h.sound
  have hq := hd.queued
  generalize (d.pool.oldest fun _ => true) = queue at hq
  have hfirst := collecting hd hc hq a
  have hsecond := collecting hfirst.sound hfirst.policy hfirst.queued b
  have hboth := collecting hd hc hq (budgetSum most a b)
  have hsplit : d.owned (upTo (budgetSum most a b) queue) =
      d.owned (upTo a queue) ++ d.owned (upTo b (beyond a queue)) := by
    rw [upTo_budgetSum (Nat.le_trans hq.length_le (h.size_lines ▸ hmost)), owned, List.map_append]
    rfl
  have hlater : second.result = .ok (d.owned (upTo b (beyond a queue))) :=
    hsecond.result.trans (congrArg Except.ok (hfirst.owners _))
  have hstate : second.state =
      (d.collected (d.owned (upTo a queue))).collected (d.owned (upTo b (beyond a queue))) := by
    rw [← hfirst.owners (upTo b (beyond a queue)), ← hfirst.state]
    exact hsecond.state
  have hstate' : both.state = _ := hboth.state.trans (congrArg d.collected hsplit)
  rw [hstate, hstate']
  refine ⟨⟨_, _, hfirst.result, hlater, hboth.result.trans (congrArg Except.ok hsplit)⟩,
    d.timeless_collected _ _, rfl, rfl, ?_⟩
  rintro rfl
  have hspent : upTo b (beyond none queue) = [] := by cases b <;> simp [upTo, beyond]
  rw [hspent] at hlater
  exact hlater

/-- Both units are full and became so in turns, and each opens on a line of its own that the first
or the second collection erases. -/
theorem budgets_add_up_of_full_units :
    ∃ fresh, build ⟨4, 2, 6, 1, by decide⟩ { handles := 2 } (.steady 0 1) = .ok fresh ∧
      let rs : List (Request Host.Window) := [.enable, .write (.placed 0 15 0),
        .write (.placed 0 15 1), .write (.placed 0 7 0), .write (.placed 0 7 1)]
      let d := fresh.run rs
      Reachable Host.Window d ∧ d.collector.policy = .oldestFirst ∧
        d.geometry.lines ≤ bitRange 64 - 1 ∧
        (∃ xs ys, (d.gc (some 1)).result = .ok xs ∧
          ((d.gc (some 1)).state.gc (some 2)).result = .ok ys ∧
          (d.gc (some 3)).result = .ok (xs ++ ys) ∧
          xs = [⟨0, some 0⟩] ∧ ys = [⟨1, some 0⟩, ⟨3, some 1⟩]) ∧
        ((d.gc (some 1)).state.gc (some 2)).state.timeless = (d.gc (some 3)).state.timeless := by
  have hbuild : build ⟨4, 2, 6, 1, by decide⟩ { handles := 2 } (.steady 0 1) = .ok _ := rfl
  refine ⟨_, hbuild, ?_⟩
  intro rs d
  have hreach : Reachable Host.Window d := ⟨_, _, _, _, hbuild, rs, rfl⟩
  have hfair : ∀ r ∈ rs, r.Fair := by simp [rs, Request.Fair]
  obtain ⟨hsound, -, hpolicy, hqueued⟩ := (queueing_build hbuild).run hfair
  have hlines : d.geometry.lines ≤ bitRange 64 - 1 := by decide +kernel
  obtain ⟨⟨xs, ys, hxs, hys, hboth⟩, hstate, -⟩ :=
    budgets_add_up hreach hpolicy hlines (some 1) (some 2)
  have hsum : budgetSum (bitRange 64 - 1) (some 1) (some 2) = some 3 := by decide
  rw [hsum] at hboth hstate
  have hfirst := (gc_of_queued hsound hpolicy hqueued (some 1)).1.symm.trans hxs
  have hall := (gc_of_queued hsound hpolicy hqueued (some 3)).1.symm.trans hboth
  have hxs' : [⟨0, some 0⟩] = xs := Except.ok.inj (Eq.trans (by decide +kernel) hfirst)
  have hall' : [⟨0, some 0⟩, ⟨1, some 0⟩, ⟨3, some 1⟩] = xs ++ ys :=
    Except.ok.inj (Eq.trans (by decide +kernel) hall)
  rw [← hxs'] at hall'
  exact ⟨hreach, hpolicy, hlines,
    ⟨xs, ys, hxs, hys, hboth, hxs'.symm, (List.cons.inj hall').2.symm⟩, hstate⟩

end Device

end DataPlacement
