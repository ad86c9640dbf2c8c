import DataPlacement.Proofs.Configuration.Routing
import DataPlacement.Proofs.PlainPath
import DataPlacement.Proofs.Pool.WriteLoop

namespace DataPlacement

/-- All pages are written: the write loop comes to this fill, never without a line. It goes once
around for each free line and for the current one at most, and the lines that it takes are lines of
the pool. -/
structure Pool.CarriedOut (p : Pool) (o : Option UnitId) (rollover : Rollover) (w : WritePointer)
    (pages : Nat) (f : Fill) : Prop where
  loop : WriteLoop o rollover p w pages f
  fed : f.starved = false
  rounds : f.lines.length ≤ p.freeCount o + 1
  known : ∀ id ∈ f.lines ++ f.pointer.line.toList, w.line = some id ∨ id < p.lines.size

namespace Configuration

/-- Why a placed write is refused: the first of these that is the case. -/
inductive WriteRefusal (c : Configuration) (p : Pool) (placement : Placement) (bytes : Nat) :
    Error → Prop where
  | disabled (hoff : c.enabled = false) : WriteRefusal c p placement bytes .disabled
  | length (hon : c.enabled) (hlength : bytes = 0 ∨ bytes % c.pageSize ≠ 0) :
      WriteRefusal c p placement bytes (.invalidLength bytes)
  | group (hon : c.enabled) (hlength : bytes ≠ 0 ∧ bytes % c.pageSize = 0)
      (hgroup : c.resolve placement = .error (.invalidGroup placement.group)) :
      WriteRefusal c p placement bytes (.invalidGroup placement.group)
  | handle (hon : c.enabled) (hlength : bytes ≠ 0 ∧ bytes % c.pageSize = 0)
      (hhandle : c.resolve placement = .error (.invalidHandle placement.handle)) :
      WriteRefusal c p placement bytes (.invalidHandle placement.handle)
  | room {u : UnitId} (htargets : c.Targets placement bytes u)
      (hlong : c.availablePages p u < bytes / c.pageSize) :
      WriteRefusal c p placement bytes (.unitExhausted u)

theorem cause_of_unresolved {c : Configuration} {placement : Placement} {cause : Error}
    (h : c.resolve placement = .error cause) :
    cause = .invalidGroup placement.group ∨ cause = .invalidHandle placement.handle := by
  unfold resolve at h
  split at h
  · exact .inl (Except.error.inj h).symm
  · split at h
    · exact .inr (Except.error.inj h).symm
    · cases h

/-- A placed write is refused as it stands, with everything as it was, or there is room for it. -/
theorem write_cases (c : Configuration) (p : Pool) (placement : Placement)
    (block bytes now : Nat) :
    (∃ cause notices, c.WriteRefusal p placement bytes cause ∧
        c.write p placement block bytes now = .refused cause (c, p) notices) ∨
      ∃ u, c.Targets placement bytes u ∧ bytes / c.pageSize ≤ c.availablePages p u := by
  cases hon : c.enabled with
  | false => exact .inl ⟨.disabled, [], .disabled hon, by simp [write, hon]⟩
  | true =>
    by_cases hlength : bytes = 0 ∨ bytes % c.pageSize ≠ 0
    · exact .inl ⟨_, [], .length hon hlength,
        write_of_invalid p placement block bytes now hon hlength⟩
    · rw [not_or, not_not] at hlength
      cases hresolve : c.resolve placement with
      | error cause =>
        have hrefused := write_of_unresolved p block now hon hlength.1 hlength.2 hresolve
        obtain rfl | rfl := cause_of_unresolved hresolve
        · exact .inl ⟨_, [], .group hon hlength hresolve, hrefused⟩
        · exact .inl ⟨_, [], .handle hon hlength hresolve, hrefused⟩
      | ok u =>
        have htargets : c.Targets placement bytes u := ⟨hon, hlength.1, hlength.2, hresolve⟩
        rcases Nat.lt_or_ge (c.availablePages p u) (bytes / c.pageSize) with hlong | hfits
        · exact .inl ⟨_, _, .room htargets hlong,
            c.write_of_exhausted p placement block bytes now htargets hlong⟩
        · exact .inr ⟨u, htargets, hfits⟩

end Configuration

/-- Why a plain write is refused. -/
inductive PlainPath.WriteRefusal (path : PlainPath) (p : Pool) (pageSize bytes : Nat) :
    Error → Prop where
  | length (hlength : bytes = 0 ∨ bytes % pageSize ≠ 0) :
      WriteRefusal path p pageSize bytes (.invalidLength bytes)
  | room (hlength : bytes ≠ 0 ∧ bytes % pageSize = 0)
      (hlong : path.availablePages p < bytes / pageSize) :
      WriteRefusal path p pageSize bytes .sharedExhausted

/-- How a placed write ends: it is refused and changes nothing, or all its pages are written. -/
inductive Configuration.WriteEnd (c : Configuration) (p : Pool) (placement : Placement)
    (block bytes now : Nat) : Outcome (Configuration × Pool) WriteReport → Prop where
  | refused {cause : Error} {notices : List Notice}
      (hcause : c.WriteRefusal p placement bytes cause) :
      WriteEnd c p placement block bytes now (.refused cause (c, p) notices)
  | done {u : UnitId} {unit : ReclaimUnit} {f : Fill} {notices : List Notice}
      (htargets : c.Targets placement bytes u)
      (hfits : bytes / c.pageSize ≤ c.availablePages p u) (hunit : c.unit? u = some unit)
      (hdone : p.CarriedOut (some u) .atOnce unit.pointer (pageCounter (bytes / c.pageSize)) f) :
      WriteEnd c p placement block bytes now
        (.done ⟨some u, block, pageCounter (bytes / c.pageSize), f.lines, f.retired⟩
          ((c.updateUnit u (·.afterFill f now)).countWrite u bytes, f.pool) notices)

/-- How a plain write ends. -/
inductive PlainPath.WriteEnd (path : PlainPath) (p : Pool) (pageSize block bytes : Nat) :
    Outcome (PlainPath × Pool) WriteReport → Prop where
  | refused {cause : Error} (hcause : path.WriteRefusal p pageSize bytes cause) :
      WriteEnd path p pageSize block bytes (.refused cause (path, p))
  | done {f : Fill} (hlength : bytes ≠ 0 ∧ bytes % pageSize = 0)
      (hfits : bytes / pageSize ≤ path.availablePages p)
      (hdone : p.CarriedOut none .onDemand path.pointer (pageCounter (bytes / pageSize)) f) :
      WriteEnd path p pageSize block bytes
        (.done ⟨none, block, pageCounter (bytes / pageSize), f.lines, f.retired⟩
          (⟨f.pointer, advance 64 path.hostBytes bytes, advance 64 path.writes 1⟩, f.pool))

variable {c : Configuration} {path : PlainPath} {p : Pool}

end DataPlacement
