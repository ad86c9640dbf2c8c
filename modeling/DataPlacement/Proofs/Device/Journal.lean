import DataPlacement.Proofs.Device.Actions
import DataPlacement.Proofs.Device.Endings
import DataPlacement.Proofs.Device.Runs
import DataPlacement.Proofs.Pool.Progress

namespace DataPlacement

/-- An entry of the journal. A write that was accepted is entered with the unit that its report
names, or none for the plain path, and its bytes. -/
inductive Entry where
  | wrote (unit : Option UnitId) (bytes : Nat)
  | refused
  | read
  | accountingReset
  | switchedOn
  | switchedOff
  deriving DecidableEq

namespace Entry

/-- The entry says that nothing was written or switched. -/
def isQuiet : Entry → Bool
  | .refused | .read | .accountingReset => true
  | _ => false

/-- The entry of a change of the placement switch. -/
def ofSwitch? : (before after : Bool) → Option Entry
  | false, true => some .switchedOn
  | true, false => some .switchedOff
  | _, _ => none

end Entry

namespace Device

variable {μ : Type} [Host.Memory μ] {d d' : Device}

/-- The entry that an action makes, if it makes one. -/
def entryOf (d : Device) : Action → Option Entry
  | .write w =>
    match (d.write w).result with
    | .ok report => some (.wrote report.unit (w.bytes d.geometry.blockSize))
    | .error _ => some .refused
  | .read _ => some .read
  | .resetAccounting => some .accountingReset
  | action => Entry.ofSwitch? d.enabled (d.act action).enabled

/-- The journal of a run of requests, oldest entry first. -/
def journal (d : Device) : List (Request μ) → List Entry
  | [] => []
  | r :: rs => (d.entryOf r.action).toList ++ (d.after r).journal rs

theorem journal_append (d : Device) (rs rs' : List (Request μ)) :
    d.journal (rs ++ rs') = d.journal rs ++ (d.run rs).journal rs' := by
  induction rs generalizing d with
  | nil => rfl
  | cons first rs ih =>
    rw [List.cons_append, journal, ih, journal, List.append_assoc]
    rfl

/-- What an entry says of the books and of the switch. -/
inductive Posting (d : Device) : Option Entry → Device → Prop where
  | quiet {entry : Option Entry} {d' : Device} (hentry : ∀ x ∈ entry, x.isQuiet)
      (hbooks : d'.books = d.books) (hswitch : d'.enabled = d.enabled) : Posting d entry d'
  /-- The lines that the write filled up and the page before which it stopped are those that its
  pages lead to from where the unit stood. -/
  | routed {d' : Device} (u : UnitId) (m : Meter) (bytes retired page : Nat)
      (hmeter : d.books.meters[u]? = some m) (hwhole : bytes % d.geometry.pageSize = 0)
      (hpages : retired * d.geometry.pagesPerLine + page =
        m.page + pageCounter (bytes / d.geometry.pageSize))
      (hbooks : d'.books = d.books.post u bytes retired page) (hon : d.enabled)
      (hswitch : d'.enabled = d.enabled) : Posting d (some (.wrote (some u) bytes)) d'
  | plain {d' : Device} (bytes : Nat) (hbooks : d'.books = d.books.postPlain bytes)
      (hswitch : d'.enabled = d.enabled) : Posting d (some (.wrote none bytes)) d'
  | on {d' : Device} (hbooks : d'.books = d.books) (hoff : d.enabled = false)
      (hon : d'.enabled) : Posting d (some .switchedOn) d'
  | off {d' : Device} (hbooks : d'.books = d.books.clear) (hon : d.enabled)
      (hoff : d'.enabled = false) : Posting d (some .switchedOff) d'

end Device

end DataPlacement
