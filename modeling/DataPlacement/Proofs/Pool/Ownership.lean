import DataPlacement.Configuration.Distribution
import DataPlacement.Proofs.Pool.Effects
import Mathlib.Data.Finset.Card
import Mathlib.Algebra.BigOperators.Group.List.Basic
import Mathlib.Algebra.GroupWithZero.Nat

namespace DataPlacement

namespace Pool

variable {p q r : Pool} {o : Option UnitId} {u : UnitId} {id : LineId}

/-- The lines of an owner, free or not; those of no owner are shared. -/
def owned (p : Pool) (o : Option UnitId) : Finset LineId :=
  (Finset.range p.lines.size).filter (p.ownerOf · = o)

theorem mem_owned : id ∈ p.owned o ↔ ∃ l, p.lines[id]? = some l ∧ l.owner = o := by
  rw [owned, Finset.mem_filter, Finset.mem_range]
  constructor
  · rintro ⟨hid, howner⟩
    have hline : p.lines[id]? = some p.lines[id] := by simp [hid]
    exact ⟨p.lines[id], hline, by rwa [ownerOf_eq hline] at howner⟩
  · rintro ⟨l, hline, howner⟩
    obtain ⟨hid, -⟩ := Array.getElem?_eq_some_iff.1 hline
    exact ⟨hid, by rwa [ownerOf_eq hline]⟩

theorem Keeps.owned (h : Keeps p q) (o : Option UnitId) : q.owned o = p.owned o := by
  simp only [Pool.owned, h.size, h.owners]

/-- What each unit was given, out of the shared list. -/
structure Dealt (p : Pool) (given : UnitId → Nat) (total : Nat) (q : Pool) : Prop where
  own : ∀ u, (q.freeLines (some u)).length = (p.freeLines (some u)).length + given u
  owned : ∀ u, (q.owned (some u)).card = (p.owned (some u)).card + given u
  shared : (q.freeLines none).length + total = (p.freeLines none).length
  reserved : q.reserved.size = p.reserved.size
  pagesPerLine : q.pagesPerLine = p.pagesPerLine

namespace Dealt

variable {given given' : UnitId → Nat} {total total' : Nat}

theorem refl (p : Pool) : Dealt p (fun _ => 0) 0 p :=
  ⟨fun _ => rfl, fun _ => rfl, rfl, rfl, rfl⟩

theorem trans (h : Dealt p given total q) (h' : Dealt q given' total' r) :
    Dealt p (fun u => given u + given' u) (total + total') r where
  own u := by rw [h'.own, h.own, Nat.add_assoc]
  owned u := by rw [h'.owned, h.owned, Nat.add_assoc]
  shared := by
    have hfirst := h.shared
    have hsecond := h'.shared
    omega
  reserved := h'.reserved.trans h.reserved
  pagesPerLine := h'.pagesPerLine.trans h.pagesPerLine

theorem congr (h : Dealt p given total q) (hgiven : ∀ u, given' u = given u) :
    Dealt p given' total q := by
  obtain rfl : given' = given := funext hgiven
  exact h

theorem hasList (h : Dealt p given total q) (o : Option UnitId) : q.hasList o = p.hasList o := by
  cases o <;> simp [Pool.hasList, h.reserved]

end Dealt

/-- One line more for a unit, one line less to share. -/
theorem dealt_assigned {rest : List LineId} {l : Line} (hlist : p.hasList (some u))
    (hfree : p.freeLines none = id :: rest) (hline : p.lines[id]? = some l)
    (howner : l.owner = none) :
    Dealt p (fun v => if v = u then 1 else 0) 1 (p.assigned u id rest) where
  own v := by
    rw [freeLines_assigned p (some v) u id rest hlist]
    by_cases hv : v = u
    · simp [hv]
    · simp [hv]
  owned v := by
    have hsame : ∀ i, i ∈ (p.assigned u id rest).owned (some v) ↔
        i ∈ p.owned (some v) ∨ id = i ∧ v = u := by
      intro i
      simp only [mem_owned, getElem?_assigned]
      by_cases hi : id = i
      · subst hi
        simp [hline, howner, eq_comm]
      · simp [hi]
    by_cases hv : v = u
    · have hfresh : id ∉ p.owned (some v) := by simp [mem_owned, hline, howner]
      have hinsert : (p.assigned u id rest).owned (some v) = insert id (p.owned (some v)) := by
        ext i
        rw [hsame, Finset.mem_insert, eq_comm, or_comm, and_iff_left hv]
      rw [hinsert, Finset.card_insert_of_notMem hfresh, if_pos hv]
    · have hkept : (p.assigned u id rest).owned (some v) = p.owned (some v) := by
        ext i
        rw [hsame, or_iff_left (fun h => hv h.2)]
      rw [hkept, if_neg hv]
      rfl
  shared := by
    rw [freeLines_assigned p none u id rest hlist, hfree]
    simp
  reserved := by simp
  pagesPerLine := by simp

end Pool

theorem sumOf_eq_sum {α : Type} (quantity : α → Nat) (items : List α) :
    sumOf quantity items = (items.map quantity).sum := by
  induction items with
  | nil => rfl
  | cons item items ih => rw [sumOf_cons, ih, List.map_cons, List.sum_cons]

end DataPlacement
