import DataPlacement.Line

namespace DataPlacement

/-- The lines of a free list: the first ones in order, and the last ones from the end. -/
structure FreeHalves where
  front : List LineId
  back : List LineId
  size : Nat
  size_eq : size = front.length + back.length

namespace FreeHalves

def toList (h : FreeHalves) : List LineId := h.front ++ h.back.reverse

theorem size_eq_length (h : FreeHalves) : h.size = h.toList.length := by
  simp [toList, h.size_eq]

def ofList (ids : List LineId) : FreeHalves := ⟨ids, [], ids.length, rfl⟩

def push (h : FreeHalves) (id : LineId) : FreeHalves :=
  ⟨h.front, id :: h.back, h.size + 1, by simp [h.size_eq, Nat.add_assoc]⟩

def putBack (h : FreeHalves) (id : LineId) : FreeHalves :=
  ⟨id :: h.front, h.back, h.size + 1, by simp only [h.size_eq, List.length_cons]; omega⟩

/-- The first line, and the halves without it. When the front is used up, the back takes its
place. -/
def take? (h : FreeHalves) : Option (LineId × FreeHalves) :=
  match h with
  | ⟨id :: front, back, size, size_eq⟩ =>
    some (id, ⟨front, back, size - 1, by simp only [size_eq, List.length_cons]; omega⟩)
  | ⟨[], back, _, _⟩ =>
    match back.reverse with
    | [] => none
    | id :: front => some (id, ofList front)

theorem toList_ofList (ids : List LineId) : (ofList ids).toList = ids := by
  simp [ofList, toList]

theorem toList_push (h : FreeHalves) (id : LineId) : (h.push id).toList = h.toList ++ [id] := by
  simp [push, toList]

theorem toList_putBack (h : FreeHalves) (id : LineId) :
    (h.putBack id).toList = id :: h.toList := by
  simp [putBack, toList]

/-- What is taken is the head of the lines. -/
theorem map_toList_take? (h : FreeHalves) :
    (h.take?.map fun (id, rest) => id :: rest.toList) =
      if h.toList.isEmpty then none else some h.toList := by
  obtain ⟨front, back, size, size_eq⟩ := h
  cases front with
  | cons id front => simp [take?, toList]
  | nil =>
    cases hback : back.reverse with
    | nil => simp [take?, toList, hback]
    | cons id front => simp [take?, toList, ofList, hback]

/-- Halves are equal as lists if they hold the same lines in the same order. -/
instance sameLines : Setoid FreeHalves where
  r a b := a.toList = b.toList
  iseqv := ⟨fun _ => rfl, Eq.symm, Eq.trans⟩

end FreeHalves

/-- The erased lines of an owner. A line enters at the end, is taken from the head, and may be put
back there, each in constant time. How the lines are split does not matter: lists are equal that
hold the same lines in the same order. -/
def FreeList : Type := Quotient FreeHalves.sameLines

namespace FreeList

/-- The free list of two halves. -/
def join (h : FreeHalves) : FreeList := Quotient.mk FreeHalves.sameLines h

theorem join_eq {a b : FreeHalves} (h : a.toList = b.toList) : join a = join b :=
  Quotient.sound h

def toList (l : FreeList) : List LineId := Quotient.lift FreeHalves.toList (fun _ _ h => h) l

theorem toList_join (h : FreeHalves) : (join h).toList = h.toList := rfl

theorem exists_join (l : FreeList) : ∃ h, join h = l := Quotient.exists_rep l

/-- Free lists are equal if they hold the same lines in the same order. -/
theorem ext {a b : FreeList} (h : a.toList = b.toList) : a = b := by
  obtain ⟨a, rfl⟩ := exists_join a
  obtain ⟨b, rfl⟩ := exists_join b
  exact join_eq h

instance : DecidableEq FreeList := fun a b =>
  decidable_of_iff (a.toList = b.toList) ⟨ext, fun h => h ▸ rfl⟩

def ofList (ids : List LineId) : FreeList := join (.ofList ids)

def empty : FreeList := ofList []

instance : Inhabited FreeList := ⟨empty⟩

/-- How many lines there are. -/
def size (l : FreeList) : Nat :=
  Quotient.lift FreeHalves.size (fun a b (h : a.toList = b.toList) => by
    rw [a.size_eq_length, b.size_eq_length, h]) l

/-- A line at the end. -/
def push (l : FreeList) (id : LineId) : FreeList :=
  Quotient.lift (fun h => join (h.push id)) (fun a b (h : a.toList = b.toList) =>
    join_eq (by rw [a.toList_push, b.toList_push, h])) l

/-- A line at the head. -/
def putBack (l : FreeList) (id : LineId) : FreeList :=
  Quotient.lift (fun h => join (h.putBack id)) (fun a b (h : a.toList = b.toList) =>
    join_eq (by rw [a.toList_putBack, b.toList_putBack, h])) l

/-- Lines at the end, in their order. -/
def append (l : FreeList) (ids : List LineId) : FreeList := ids.foldl push l

/-- The head of a list of lines, and the free list behind it. -/
def uncons : List LineId → Option (LineId × FreeList)
  | [] => none
  | id :: rest => some (id, ofList rest)

@[simp] theorem toList_ofList (ids : List LineId) : (ofList ids).toList = ids :=
  FreeHalves.toList_ofList ids

@[simp] theorem ofList_toList (l : FreeList) : ofList l.toList = l := ext (toList_ofList _)

theorem map_join_take? (h : FreeHalves) :
    (h.take?.map fun (id, rest) => (id, join rest)) = uncons h.toList := by
  have hlines := h.map_toList_take?
  cases htaken : h.take? with
  | none =>
    cases hlist : h.toList with
    | nil => rfl
    | cons id rest => simp [htaken, hlist] at hlines
  | some taken =>
    cases hlist : h.toList with
    | nil => simp [htaken, hlist] at hlines
    | cons id rest =>
      simp only [htaken, hlist, Option.map_some, List.isEmpty_cons, Bool.false_eq_true, if_false,
        Option.some.injEq, List.cons.injEq] at hlines
      simp only [Option.map_some, uncons, hlines.1, ← hlines.2]
      rw [← toList_join, ofList_toList]

/-- The first line, and the list without it. -/
def take? (l : FreeList) : Option (LineId × FreeList) :=
  Quotient.lift (fun h => h.take?.map fun (id, rest) => (id, join rest))
    (fun a b (h : a.toList = b.toList) => by simp only [map_join_take?, h]) l

@[simp] theorem toList_empty : empty.toList = [] := toList_ofList []

@[simp] theorem size_eq_length (l : FreeList) : l.size = l.toList.length := by
  obtain ⟨h, rfl⟩ := exists_join l
  exact h.size_eq_length

@[simp] theorem toList_push (l : FreeList) (id : LineId) :
    (l.push id).toList = l.toList ++ [id] := by
  obtain ⟨h, rfl⟩ := exists_join l
  exact h.toList_push id

@[simp] theorem toList_putBack (l : FreeList) (id : LineId) :
    (l.putBack id).toList = id :: l.toList := by
  obtain ⟨h, rfl⟩ := exists_join l
  exact h.toList_putBack id

@[simp] theorem toList_append (l : FreeList) (ids : List LineId) :
    (l.append ids).toList = l.toList ++ ids := by
  induction ids generalizing l with
  | nil => simp [append]
  | cons id ids ih =>
    have h := ih (l.push id)
    rw [toList_push, List.append_assoc] at h
    exact h

/-- Taking a line takes the head of the view. -/
theorem take?_eq_uncons (l : FreeList) : l.take? = uncons l.toList := by
  obtain ⟨h, rfl⟩ := exists_join l
  exact map_join_take? h

end FreeList

end DataPlacement
