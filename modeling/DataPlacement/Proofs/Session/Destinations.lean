import DataPlacement.Proofs.Device.Addressing
import DataPlacement.Proofs.Session.Driving

namespace DataPlacement

/-! ### Writes in a row -/

namespace Device

variable {d d' : Device} {es : List LineEvent} {w : WriteCommand} {ws : List WriteCommand}
  {placement : Placement} {answer : Except Error WriteReport}

/-- The answer to a write obeys a placement: an accepted write is on lines of the unit that the
placement leads to, and if there is no such unit the write is refused. -/
structure Obeys (d : Device) (placement : Placement) (answer : Except Error WriteReport) :
    Prop where
  lands : ∀ r, answer = .ok r → ∃ u, d.configuration.resolve placement = .ok u ∧
    r.unit = some u ∧ ∀ id ∈ r.lines, d.pool.ownerOf id = some u
  refused : ∀ cause, d.configuration.resolve placement = .error cause →
    ∃ reason, answer = .error reason

theorem obeys_of_lands (h : ∀ r, answer = .ok r → ∃ u, d.configuration.resolve placement = .ok u ∧
    r.unit = some u ∧ ∀ id ∈ r.lines, d.pool.ownerOf id = some u) : d.Obeys placement answer := by
  refine ⟨h, fun cause hresolve => ?_⟩
  cases answer with
  | error reason => exact ⟨reason, rfl⟩
  | ok r =>
    obtain ⟨u, hu, -⟩ := h r rfl
    cases hresolve.symm.trans hu

/-- Two placements of an accepted write lead to the same unit. -/
theorem Obeys.resolve_eq {other : Placement} {r : WriteReport} (h : d.Obeys placement (.ok r))
    (h' : d.Obeys other (.ok r)) :
    d.configuration.resolve other = d.configuration.resolve placement := by
  obtain ⟨u, hu, hunit, -⟩ := h.lands r rfl
  obtain ⟨v, hv, hunit', -⟩ := h'.lands r rfl
  obtain rfl : u = v := Option.some.inj (hunit.symm.trans hunit')
  rw [hu, hv]

theorem Obeys.congr {other : Placement} (h : d.Obeys placement answer)
    (hresolve : d.configuration.resolve other = d.configuration.resolve placement) :
    d.Obeys other answer := by
  obtain ⟨hlands, hrefused⟩ := h
  rw [← hresolve] at hlands hrefused
  exact ⟨hlands, hrefused⟩

/-- Traffic changes neither where placements lead nor who owns a line. -/
theorem Obeys.of_advances {W : Option UnitId → Prop} (hadvances : Advances W d es d')
    (h : d'.Obeys placement answer) : d.Obeys placement answer := by
  refine obeys_of_lands fun r haccepted => ?_
  obtain ⟨u, hu, hunit, howner⟩ := h.lands r haccepted
  rw [Configuration.resolve_eq_of_blank hadvances.blank] at hu
  exact ⟨u, hu, hunit, fun id hid => (hadvances.keeps.owners id).symm.trans (howner id hid)⟩

/-- A placed write obeys the placement that the device reads in it. -/
theorem obeys_write (hd : d.Sound) (hplaces : d.places w) :
    d.Obeys (d.placementOf w) (d.write w).result := by
  refine obeys_of_lands fun r haccepted => ?_
  obtain ⟨u, hu, hunit⟩ := exists_unit_of_accepted hd hplaces haccepted
  refine ⟨u, hu, hunit, fun id hid => ?_⟩
  have hwrote : .wrote (some u) id ∈ (d.write w).lineEvents := by
    rw [Outcome.lineEvents, haccepted, ← hunit]
    exact List.mem_append_right _ (List.mem_map_of_mem hid)
  exact Allocation.owner_of_wrote (advances_any_write hd w).steps hd.allocation hwrote

/-- So do placed writes in a row. -/
theorem obeys_answers (hd : d.Sound) (hon : d.enabled)
    (hws : ∀ w ∈ ws, w.hasPlacement ∧ d.placementOf w = placement) :
    ∀ answer ∈ d.answers ws, d.Obeys placement answer := by
  induction ws generalizing d with
  | nil => simp [answers]
  | cons w ws ih =>
    have hwrite := advances_any_write hd w
    obtain ⟨⟨hplacement, hw⟩, hlater⟩ := List.forall_mem_cons.1 hws
    have hrest : ∀ w' ∈ ws, w'.hasPlacement ∧ (d.write w).state.placementOf w' = placement := by
      intro w' hw'
      rw [← (hlater w' hw').2]
      exact ⟨(hlater w' hw').1, Configuration.placementOf_eq_of_blank hwrite.blank _⟩
    intro answer hanswer
    obtain rfl | hanswer := List.mem_cons.1 hanswer
    · exact hw ▸ obeys_write hd (Bool.and_eq_true_iff.2 ⟨hon, hplacement⟩)
    · have hobeys := ih (hwrite.sound hd) (hwrite.enabled.trans hon) hrest answer hanswer
      exact hobeys.of_advances hwrite

end Device

/-! ### Write steps -/

namespace Session

variable {d : Device} {group handle size count block : Nat} {w : WriteCommand}
  {μ : Type} [Host.Memory μ]

/-- The commands that a write step sends, as the device reads them. There are none if the transfer
does not fit into a command. -/
def sentBy (d : Device) (group : Nat) (handle : Option Nat) (size count block : Nat) :
    List WriteCommand :=
  match blocksOf d.geometry size with
  | .error _ => []
  | .ok _ => commandsOf d group handle size count block

theorem device_write (s : Session) (group : Nat) (handle : Option Nat) (size count block : Nat) :
    (s.write group handle size count block).session.device =
      s.device.writeAll (sentBy s.device group handle size count block) := by
  unfold sentBy
  split
  · next cause hblocks =>
    simp only [write, hblocks]
    rfl
  · next blocks hblocks =>
    rw [(write_of_blocks s hblocks group handle count block).2]
    rfl

theorem lt_of_blocksOf {g : Geometry} {blocks : Nat} (h : blocksOf g size = .ok blocks) :
    blocks < bitRange 16 := by
  have hblocks := eq_of_blocksOf h
  unfold blocksOf at h
  dsimp only at h
  split at h
  · cases h
  · split at h
    · cases h
    · next hsome hfits =>
      have hpositive := Nat.pos_of_ne_zero hsome
      have hshort : size / g.blockSize ≤ bitRange 16 := Nat.le_of_not_lt hfits
      omega

/-- Every command of a step that names a handle has the placement that is read out of the
identifier. -/
theorem placement_of_mem_sentBy (hbits : d.configuration.groupBits ≤ 16)
    (hhandle : handle < bitRange 16) (hw : w ∈ sentBy d group (some handle) size count block) :
    w.hasPlacement ∧ d.placementOf w = d.configuration.reading group handle := by
  unfold sentBy at hw
  split at hw
  · cases hw
  · next blocks hblocks =>
    have hshort := lt_of_blocksOf hblocks
    obtain rfl := eq_of_blocksOf hblocks
    obtain ⟨sent, hsent, rfl⟩ := List.mem_map.1 hw
    obtain ⟨n, -, rfl⟩ := List.mem_map.1 hsent
    rw [WriteCommand.received_eq _ (by rwa [blocks_writeCommand])]
    exact ⟨rfl, Configuration.placementOf_packIdentifier hbits hhandle⟩

/-- The writes of a step obey the group and the handle that the device reads in them. The accepted
ones obey those that the step names if and only if both lead to the same unit. If the group and the
handle fit into their bits, they are what is read, and the step goes where it says or nowhere. But
whatever groups a device has, there is one that it has not and that it reads as its first. -/
theorem destination_of_write {s : Session} (hd : Device.Reachable μ s.device)
    (hon : s.device.enabled) (group : Nat) {handle : Nat} (hhandle : handle < bitRange 16)
    (size count block : Nat) :
    let c := s.device.configuration
    let sent := sentBy s.device group (some handle) size count block
    let fits := group < bitRange c.groupBits ∧ handle < bitRange (16 - c.groupBits)
    (s.perform (.write group (some handle) size count block)).session.device =
        s.device.writeAll sent ∧
      (∀ answer ∈ s.device.answers sent, s.device.Obeys (c.reading group handle) answer) ∧
      (∀ r, .ok r ∈ s.device.answers sent →
        (s.device.Obeys ⟨group, handle⟩ (.ok r) ↔
          c.resolve ⟨group, handle⟩ = c.resolve (c.reading group handle))) ∧
      (c.reading group handle = ⟨group, handle⟩ ↔ fits) ∧
      (fits → ∀ answer ∈ s.device.answers sent, s.device.Obeys ⟨group, handle⟩ answer) ∧
      c.resolve ⟨bitRange c.groupBits, 0⟩ = .error (.invalidGroup (bitRange c.groupBits)) ∧
      c.resolve (c.reading (bitRange c.groupBits) 0) = .ok 0 := by
  intro c sent fits
  have hsound := hd.sound
  have hshaped : s.device.configuration.Shaped := by
    obtain ⟨g, params, clock, fresh, hbuild, rs, hrun⟩ := hd
    rw [hrun]
    exact (Device.shaped_run hbuild rs).1
  have hobeys : ∀ answer ∈ s.device.answers sent,
      s.device.Obeys (c.reading group handle) answer :=
    Device.obeys_answers hsound hon fun w hw =>
      placement_of_mem_sentBy hshaped.groupBits_le hhandle hw
  have hread : c.reading group handle = ⟨group, handle⟩ ↔ fits := Configuration.reading_eq_iff
  refine ⟨device_write s group (some handle) size count block, hobeys, fun r hr => ?_, hread,
    fun hfits => hread.2 hfits ▸ hobeys, hshaped.resolve_reading_of_wide_group⟩
  have haccepted := hobeys _ hr
  exact ⟨fun hnamed => haccepted.resolve_eq hnamed, fun hresolve => haccepted.congr hresolve⟩

/-- Two groups of two handles each. A step names the last unit, and its two writes are on lines of
that unit. -/
theorem destination_of_write_to_last_unit :
    ∃ fresh, Device.build ⟨4, 2, 8, 1, by decide⟩ { groups := 2, handles := 2 } (.steady 0 1) =
        .ok fresh ∧
      let s : Session := { device := fresh.run ([.enable] : List (Device.Request Host.Window)) }
      s.device.enabled ∧ s.device.configuration.resolve ⟨1, 1⟩ = .ok 3 ∧
        s.device.answers (sentBy s.device 1 (some 1) 4 2 0) =
          [.ok ⟨some 3, 0, 1, [6], []⟩, .ok ⟨some 3, 4, 1, [6], [6]⟩] ∧
        ∀ answer ∈ s.device.answers (sentBy s.device 1 (some 1) 4 2 0),
          s.device.Obeys ⟨1, 1⟩ answer := by
  have hbuild : Device.build ⟨4, 2, 8, 1, by decide⟩ { groups := 2, handles := 2 } (.steady 0 1) =
    .ok _ := rfl
  refine ⟨_, hbuild, ?_⟩
  intro s
  have hreach : Device.Reachable Host.Window s.device := ⟨_, _, _, _, hbuild, _, rfl⟩
  have hon : s.device.enabled := by decide +kernel
  obtain ⟨-, -, -, -, hobeys, -⟩ :=
    destination_of_write hreach hon 1 (by decide : 1 < bitRange 16) 4 2 0
  exact ⟨hon, by decide +kernel, by decide +kernel, hobeys (by decide +kernel)⟩

/-- Two groups of two handles each, and two steps that name no unit: one a third group, the other a
handle that reaches into the group. -/
def strayed : Scenario where
  device := ⟨4096, 8192, 8, 4096⟩
  placement := { groups := 2, handles := 2 }
  steps := [.write 2 (some 1) 4096 1 0, .write 0 (some 32769) 4096 1 0]

/-- Both steps write, the first one to a unit of the first group and the second one to a unit of the
second. -/
theorem destinations_of_strayed :
    ∃ s, (start strayed (.steady 0 1)).result = .ok s ∧ s.device.enabled ∧
      s.device.configuration.resolve ⟨2, 1⟩ = .error (.invalidGroup 2) ∧
      s.device.configuration.resolve ⟨0, 32769⟩ = .error (.invalidHandle 32769) ∧
      s.device.answers (sentBy s.device 2 (some 1) 4096 1 0) =
        [.ok ⟨some 1, 0, 1, [2], []⟩] ∧
      s.device.answers (sentBy s.device 0 (some 32769) 4096 1 0) =
        [.ok ⟨some 3, 0, 1, [6], []⟩] ∧
      (s.run strayed.steps).session.tally.refused = 0 := by
  have hbuild :
      Device.build ⟨4096, 2, 8, 4096, by decide⟩ { groups := 2, handles := 2 } (.steady 0 1) =
        .ok _ := rfl
  have hvalid : strayed.validate.1 = .ok () := rfl
  have hg : strayed.geometry = .ok ⟨4096, 2, 8, 4096, by decide⟩ := rfl
  refine ⟨_, result_start_of_enabled hvalid hg hbuild rfl rfl (eq_ok_of_isOk ?_), ?_⟩
  · decide +kernel
  · decide +kernel

end Session

end DataPlacement
