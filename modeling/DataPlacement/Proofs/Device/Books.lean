import DataPlacement.Proofs.Device.Switching
import DataPlacement.Proofs.Device.Writes

namespace DataPlacement

/-- What a unit counts, with the page of its current line that it writes next. -/
structure Meter where
  hostBytes : Nat := 0
  mediaBytes : Nat := 0
  writes : Nat := 0
  linesConsumed : Nat := 0
  page : Nat := 0

/-- The meter after a write that filled up `retired` lines and stopped before `page`. -/
def Meter.post (m : Meter) (bytes retired page : Nat) : Meter where
  hostBytes := advance 64 m.hostBytes bytes
  mediaBytes := advance 64 m.mediaBytes bytes
  writes := advance 64 m.writes 1
  linesConsumed := advance 32 m.linesConsumed retired
  page := page

def ReclaimUnit.meter (unit : ReclaimUnit) : Meter where
  hostBytes := unit.hostBytes
  mediaBytes := unit.mediaBytes
  writes := unit.writes
  linesConsumed := unit.linesConsumed
  page := unit.pointer.page

/-- Meters are in unit order. -/
structure Books where
  meters : List Meter
  totals : Totals
  lastUnit : Option UnitId
  plainBytes : Nat
  plainWrites : Nat

namespace Books

/-- A write to a unit leaves the unit that was written last. -/
def leaves (b : Books) (u : UnitId) : Bool :=
  match b.lastUnit with
  | none => false
  | some last => last ≠ u

/-- The books after a write to a unit. -/
def post (b : Books) (u : UnitId) (bytes retired page : Nat) : Books :=
  { b with
    meters := b.meters.modify u (·.post bytes retired page)
    totals := {
      hostBytes := advance 64 b.totals.hostBytes bytes
      mediaBytes := advance 64 b.totals.mediaBytes bytes
      writes := advance 64 b.totals.writes 1
      unitSwitches := advance 64 b.totals.unitSwitches (if b.leaves u then 1 else 0) }
    lastUnit := some u }

/-- The books after a write to the plain path. -/
def postPlain (b : Books) (bytes : Nat) : Books :=
  { b with plainBytes := advance 64 b.plainBytes bytes, plainWrites := advance 64 b.plainWrites 1 }

/-- The books after placement was turned off. -/
def clear (b : Books) : Books :=
  { b with meters := b.meters.map fun _ => {}, lastUnit := none }

end Books

namespace Configuration

variable {c : Configuration} {path : PlainPath} {u : UnitId}

def books (c : Configuration) (path : PlainPath) : Books where
  meters := c.units.toList.map (·.meter)
  totals := c.totals
  lastUnit := c.lastUnit
  plainBytes := path.hostBytes
  plainWrites := path.writes

theorem meters_getElem? (c : Configuration) (path : PlainPath) (u : UnitId) :
    (c.books path).meters[u]? = (c.unit? u).map (·.meter) := by
  simp [books, unit?]

theorem books_updateUnit {f : ReclaimUnit → ReclaimUnit} {g : Meter → Meter}
    (h : ∀ unit, c.unit? u = some unit → (f unit).meter = g unit.meter) :
    (c.updateUnit u f).books path =
      { c.books path with meters := (c.books path).meters.modify u g } := by
  have hmeters : ((c.updateUnit u f).books path).meters = (c.books path).meters.modify u g := by
    apply List.ext_getElem?
    intro v
    rw [List.getElem?_modify, meters_getElem?, meters_getElem?, unit?_updateUnit]
    by_cases huv : u = v
    · subst huv
      cases hunit : c.unit? u with
      | none => simp
      | some unit => simp [h unit hunit]
    · simp [huv]
  rw [← hmeters]
  rfl

/-- Opening a unit that has no page in writing leaves its meter alone. -/
theorem books_openOn (line : LineId) (now : Nat)
    (h : ∀ unit, c.unit? u = some unit → unit.pointer.page = 0) :
    (c.updateUnit u (·.openOn line now)).books path = c.books path := by
  have hsame : ∀ unit, c.unit? u = some unit → (unit.openOn line now).meter = id unit.meter := by
    intro unit hunit
    simp [ReclaimUnit.meter, ReclaimUnit.openOn, WritePointer.start, h unit hunit]
  rw [books_updateUnit hsame, List.modify_id]

end Configuration

namespace Device

variable {d : Device} {u : UnitId}

def books (d : Device) : Books := d.configuration.books d.path

/-- A unit that is opened again had no line, and no page in writing. -/
theorem books_rearm (hd : d.Sound) (u : UnitId) (now : Nat) :
    (d.onUnits fun c p => c.rearm p u now).state.books = d.books := by
  simp only [onUnits_eq_mapState]
  obtain hsame | ⟨unit, id, rest, hunit, hfull, hfree, hrearm⟩ :=
    d.configuration.rearm_cases d.pool now u
  · rw [hsame]
    rfl
  · rw [hrearm]
    apply Configuration.books_openOn
    intro before hbefore
    obtain rfl : unit = before := Option.some.inj (hunit.symm.trans hbefore)
    rw [hd.pointer_of_full hunit hfull]
    rfl

theorem books_rearmOwners (hd : d.Sound) (now : Nat) (erased : List Reclaimed) :
    (rearmOwners now erased d).1.books = d.books := by
  induction erased generalizing d with
  | nil => rfl
  | cons r rest ih =>
    rw [rearmOwners]
    cases r.owner with
    | none => exact ih hd
    | some u =>
      have hsound := (advances_rearm (W := fun _ => True) hd (u := u) trivial now).1.sound hd
      exact (ih hsound).trans (books_rearm hd u now)

theorem books_collect (hd : d.Sound) (budget : Option Nat) (wanted : Candidate → Bool) :
    (d.collect budget wanted).state.books = d.books := by
  have hpass : (d.pass budget wanted).state.books = d.books := rfl
  cases hresult : (d.pass budget wanted).result with
  | error cause =>
    rw [collect_of_error budget hresult]
    exact hpass
  | ok erased =>
    have hpassed := (advances_any_pass d budget wanted).sound hd
    rw [collect_of_ok budget hresult]
    exact (books_rearmOwners hpassed.tick _ erased).trans hpass

end Device

end DataPlacement
