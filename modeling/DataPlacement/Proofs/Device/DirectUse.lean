import DataPlacement.Proofs.Device.Runs

namespace DataPlacement.Device

open Allocation

variable {d d' : Device} {es : List LineEvent} {μ : Type} [Host.Memory μ]

/-- Turning placement on at the units alone: the plain path keeps its line. -/
def enableUnits (d : Device) : Device :=
  let (c, p, clock) := (d.configuration.enable d.pool d.clock).state
  { d.setUnits (c, p) with clock := clock }

/-- A plain write in pages of any size. -/
def plainWrite (d : Device) (pageSize block bytes : Nat) : Outcome Device WriteReport :=
  d.onPath fun path p => path.write p pageSize block bytes

/-- What a new device can become through requests to it and through its parts: placed writes of any
number of bytes at any time, plain writes, placement turned on or off, bare passes of the collector,
and single erasures. -/
inductive Attainable (μ : Type) [Host.Memory μ] : Device → Prop where
  | built {g : Geometry} {params : Parameters} {clock : Clock} {d : Device}
      (hbuild : build g params clock = .ok d) : Attainable μ d
  | requested {d : Device} (h : Attainable μ d) (r : Request μ) : Attainable μ (d.after r)
  | placed {d : Device} (h : Attainable μ d) (placement : Placement) (block bytes now : Nat) :
      Attainable μ (d.routeOnce placement block bytes now).state
  | written {d : Device} (h : Attainable μ d) (pageSize block bytes : Nat) :
      Attainable μ (d.plainWrite pageSize block bytes).state
  | enabled {d : Device} (h : Attainable μ d) : Attainable μ d.enableUnits
  | disabled {d : Device} (h : Attainable μ d) :
      Attainable μ (d.onUnits Configuration.disable).state
  | collected {d : Device} (h : Attainable μ d) (budget : Option Nat)
      (wanted : Candidate → Bool) : Attainable μ (d.pass budget wanted).state
  | erased {d : Device} (h : Attainable μ d) (line : LineId) :
      Attainable μ { d with pool := (d.pool.reclaim line).state }

/-- What the controller advertises has no part in soundness. -/
theorem Sound.advertise (hd : d.Sound) (capabilities : Capabilities) :
    Sound { d with capabilities := capabilities } :=
  ⟨hd.allocation, hd.settled, hd.reserved, hd.housed, hd.geometry, hd.pageSize, hd.pagesPerLine⟩

theorem advances_plainWrite (hd : d.Sound) (pageSize block bytes : Nat) :
    ∃ es, Advances (fun _ => True) d es (d.plainWrite pageSize block bytes).state := by
  simp only [plainWrite, onPath_eq_mapState]
  obtain ⟨cause, hrefused⟩ | ⟨hzero, hwhole, hfits⟩ :=
    d.path.write_cases d.pool pageSize block bytes
  · rw [hrefused]
    exact ⟨[], .refl d⟩
  · rw [d.path.write_of_fits d.pool block hzero hwhole hfits (hd.allocation.page_le none)]
    have hsteps := steps_fill (W := fun _ => True) (o := none) trivial .onDemand
      (pageCounter (bytes / pageSize)) hd.allocation
    refine ⟨(d.path.writeFill d.pool pageSize bytes).lines.map (.wrote none), ?_, rfl, rfl, rfl,
      rfl, id, fun _ _ => rfl⟩
    change Steps _ _ _ (Allocation.mk _ (d.configuration.pointers (PlainPath.mk _ _ _)))
    rw [d.configuration.pointers_setPath d.path]
    exact hsteps

theorem sound_enableUnits (hd : d.Sound) : d.enableUnits.Sound := by
  cases hon : d.configuration.enabled with
  | true =>
    have hsame : d.enableUnits = d := by
      simp [enableUnits, Configuration.enable, hon, Outcome.done, setUnits]
    rwa [hsame]
  | false =>
    have hoff : d.enabled = false := hon
    rcases Nat.lt_or_ge d.pool.shared.size d.configuration.units.size with hfew | hmany
    · obtain ⟨u, notices, hfail, -⟩ := Configuration.distribute_of_scarce d.clock.now hfew
      have hticked : d.enableUnits = d.tick := by
        simp only [enableUnits, Configuration.enable, hon, hfail]
        rfl
      rw [hticked]
      exact hd.tick
    · obtain ⟨dist, c, q, notices, hdone, -, hdistributed⟩ :=
        Configuration.distribute_of_ample d.path d.clock.now hd.allocation
          (Array.size_eq_zero_iff.1 (hd.reserved_of_off hoff)) (hd.pointer_of_off hoff) hmany
      have hdealt : d.enableUnits =
          { d.switchedOn c q with capabilities := d.capabilities } := by
        simp only [enableUnits, Configuration.enable, hon, hdone]
        rfl
      rw [hdealt]
      exact (sound_switchedOn hd hoff hdistributed).advertise d.capabilities

theorem sound_erase (hd : d.Sound) (line : LineId) :
    Sound { d with pool := (d.pool.reclaim line).state } := by
  obtain ⟨cause, hrefused⟩ | ⟨l, hline, hstate, hlist⟩ := d.pool.reclaim_cases line
  · rw [hrefused]
    exact hd
  · rw [Pool.reclaim_of_full hline hstate hlist]
    have hadvances : Advances (fun _ => True) d [.erased line]
        { d with pool := d.pool.reclaimed l.owner line } :=
      ⟨.single (.reclaims trivial (s := d.allocation) hline hstate hlist), rfl, rfl, rfl, rfl, id,
        fun _ _ => rfl⟩
    exact hadvances.sound hd

/-- However the parts of a device are used, it stays sound. -/
theorem Attainable.sound (h : Attainable μ d) : d.Sound := by
  induction h with
  | built hbuild => exact sound_build hbuild
  | requested _ r ih => exact (changes_after ih r).sound
  | placed _ placement block bytes now ih =>
    exact (advances_routeOnce (W := fun _ => True) block now ih fun _ _ => trivial).sound ih
  | written _ pageSize block bytes ih =>
    obtain ⟨es, hadvances⟩ := advances_plainWrite ih pageSize block bytes
    exact hadvances.sound ih
  | enabled _ ih => exact sound_enableUnits ih
  | @disabled d _ ih =>
    have hsame : (d.onUnits Configuration.disable).state =
        { d.disable.state with capabilities := d.capabilities } := rfl
    rw [hsame]
    exact (changes_disable ih).1.sound.advertise d.capabilities
  | collected _ budget wanted ih => exact (advances_any_pass _ budget wanted).sound ih
  | erased _ line ih => exact sound_erase ih line

end DataPlacement.Device
