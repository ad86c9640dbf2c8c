import DataPlacement.HostPage
import DataPlacement.Proofs.Command.Dwords
import DataPlacement.Proofs.Device.Addressing
import DataPlacement.Proofs.Device.Serving
import DataPlacement.Proofs.Host.Memory
import DataPlacement.Proofs.Page.Decoding

namespace DataPlacement

variable {μ ν : Type} [Host.Memory μ] [Host.Memory ν]

/-! ### Serving -/

namespace Page

variable {m : μ} {page : List UInt8} {minimum requested : Nat}

theorem serve_of_short (h : requested < minimum) :
    serve m page minimum requested = (.error (.bufferTooSmall minimum requested), m) := by
  rw [serve, if_pos h]

/-- A page is served to any memory that takes it. -/
theorem serve_of_takes (hlong : minimum ≤ requested)
    (htakes : Host.Takes m (min page.length requested)) :
    (serve m page minimum requested).1 = .ok (min page.length requested) ∧
      (Host.Memory.readAt (serve m page minimum requested).2 0 (min page.length requested)).1 =
        .ok (page.take (min page.length requested)) := by
  obtain ⟨hmoved, hread⟩ := htakes.transfer
  rw [serve, if_neg (Nat.not_lt.2 hlong)]
  refine ⟨?_, hread⟩
  simp only [hmoved]
  rfl

end Page

/-- A device keeps the shape of its configuration, whatever it is asked to do. -/
theorem Device.Reachable.shaped {d : Device} (hd : Reachable ν d) : d.configuration.Shaped := by
  obtain ⟨g, params, clock, fresh, hbuild, rs, rfl⟩ := hd
  exact (shaped_run hbuild rs).1

namespace Device

variable {d : Device}

theorem readLog_eq_serve (hon : d.enabled = true) (m : μ) {r : LogRequest} {name : LogPage}
    (hpage : r.page? = some name) :
    ∃ notices, d.readLog m r =
      ⟨(Page.serve m (d.logPage name) name.minimum r.length).1,
        (Page.serve m (d.logPage name) name.minimum r.length).2, notices⟩ := by
  simp [readLog, hpage, hon]

theorem readUnitStatus_eq_serve (hon : d.enabled = true) (m : μ) (length : Nat) :
    d.readUnitStatus m ⟨unitStatusOperation, length⟩ =
      Page.serve m d.unitStatusPage Page.unitStatusHeader length := by
  simp [readUnitStatus, hon]

end Device

namespace HostPage

variable {d : Device} {m : μ}

/-- The length that the device makes of the one that is asked for. -/
def asked : HostPage → Nat → Nat
  | log _, length => ((length / 4 - 1) % bitRange 32 + 1) * 4
  | unitStatus, length => min (length / 4) (bitRange 32) * 4

theorem length_received_log (page : LogPage) {length : Nat} (hlong : 4 ≤ length) :
    (LogRequest.received ⟨page.identifier, length⟩).length = (log page).asked length := by
  have hlog : page.identifier < bitRange 16 := by cases page <;> decide
  have hcount : dwordCount length = length / 4 - 1 := by
    rw [← dwordCount_add_one hlong, Nat.add_sub_cancel]
  rw [LogRequest.received_eq _ hlog, hcount, asked]

theorem received_unitStatus {length : Nat} (hlong : 4 ≤ length) :
    ManagementRequest.received ⟨unitStatusOperation, length⟩ =
      ⟨unitStatusOperation, unitStatus.asked length⟩ := by
  have hoperation : unitStatusOperation < bitRange 8 := by decide
  have hpositive := bitRange_pos 32
  have hmin : min (dwordCount length) (bitRange 32 - 1) + 1 =
      min (dwordCount length + 1) (bitRange 32) := by omega
  rw [ManagementRequest.received_eq _ hoperation, asked, ← dwordCount_add_one hlong, hmin]

theorem fetch_log (name : LogPage) (m : μ) (length : Nat) :
    (log name).fetch d m length =
      let read := d.readLog m (LogRequest.received ⟨name.identifier, length⟩)
      ⟨.ofResult read.result, read.memory, read.notices⟩ := rfl

theorem fetch_unitStatus (m : μ) (length : Nat) :
    unitStatus.fetch d m length =
      let read := d.readUnitStatus m (ManagementRequest.received ⟨unitStatusOperation, length⟩)
      ⟨.ofResult read.1, read.2, []⟩ := rfl

/-- A fetch serves the page for the length that the device is told. -/
theorem fetch_eq (hon : d.enabled = true) (page : HostPage) (m : μ) {length : Nat}
    (hlong : 4 ≤ length) :
    let s := page.fetch d m length
    let served := Page.serve m (page.content d) page.minimum (page.asked length)
    s.result = .ofResult served.1 ∧ s.memory = served.2 := by
  cases page with
  | log name =>
    obtain ⟨notices, hread⟩ := Device.readLog_eq_serve hon m (LogRequest.page?_received name length)
    rw [fetch_log, hread, length_received_log name hlong]
    exact ⟨rfl, rfl⟩
  | unitStatus =>
    rw [fetch_unitStatus, received_unitStatus hlong, Device.readUnitStatus_eq_serve hon m]
    exact ⟨rfl, rfl⟩

/-- No more is asked for than was to be, in whole dwords. -/
theorem asked_le (page : HostPage) {length : Nat} (hlong : 4 ≤ length) :
    page.asked length ≤ length / 4 * 4 := by
  cases page with
  | log name =>
    have hmod := Nat.mod_le (length / 4 - 1) (bitRange 32)
    rw [asked]
    omega
  | unitStatus => exact Nat.mul_le_mul_right 4 (Nat.min_le_left _ _)

/-- Up to the largest length that a command has room for, nothing of it is lost. -/
theorem asked_of_lt (page : HostPage) {length : Nat} (hlong : 4 ≤ length)
    (hroom : length < bitRange 34 + 4) : page.asked length = length / 4 * 4 := by
  rw [bitRange_eq_two_pow] at hroom
  cases page with
  | log name =>
    have hmod : (length / 4 - 1) % bitRange 32 = length / 4 - 1 := by
      rw [bitRange_eq_two_pow]
      exact Nat.mod_eq_of_lt (by omega)
    rw [asked, hmod]
    omega
  | unitStatus =>
    have hmin : min (length / 4) (bitRange 32) = length / 4 := by
      rw [bitRange_eq_two_pow]
      exact Nat.min_eq_left (by omega)
    rw [asked, hmin]

/-! ### Sizes -/

theorem size_configurations (d : Device) :
    (log .configurations).size d = 80 + 4 * d.configuration.handles := by
  have hlength := Page.length_configurations d.configuration d.pool
  rw [Page.configurationsSize, Page.descriptorSize, Page.configurationsHeader] at hlength
  exact hlength.trans (by omega)

theorem size_statistics (d : Device) : (log .statistics).size d = 640 :=
  Page.length_statistics d.configuration d.pool

theorem size_events (d : Device) : (log .events).size d = 64 := rfl

theorem size_unitStatus (d : Device) :
    unitStatus.size d = 16 + 32 * d.configuration.units.size :=
  Page.length_unitStatus d.configuration

/-- A page has whole dwords, a header, and fewer bytes than the longest transfer. -/
theorem size_bounds (h : d.configuration.Shaped) (page : HostPage) :
    page.minimum ≤ page.size d ∧ 4 ∣ page.size d ∧ page.size d ≤ bitRange 34 := by
  have hhandles : d.configuration.handles ≤ 128 := h.table
  have hunits : d.configuration.units.size < 2 ^ 16 := by
    rw [h.size, ← bitRange_eq_two_pow]
    exact h.count
  rw [bitRange_eq_two_pow]
  match page with
  | log .configurations =>
    rw [size_configurations, minimum, LogPage.minimum]
    omega
  | log .statistics =>
    rw [size_statistics]
    decide
  | log .events =>
    rw [size_events]
    decide
  | unitStatus =>
    rw [size_unitStatus, minimum, Page.unitStatusHeader]
    omega

/-! ### Fetching -/

/-- Bytes from the start of the page were moved, and the memory has them at its start. -/
structure Fetched (d : Device) (page : HostPage) (s : Device.Served μ Completion) (count : Nat) :
    Prop where
  result : s.result = .done count
  bytes : (Host.Memory.readAt s.memory 0 count).1 = .ok ((page.content d).take count)

section Fetching

variable {page : HostPage} {length : Nat}

/-- The least that a page may be asked for is whole dwords. -/
theorem minimum_le_dwords (hlong : page.minimum ≤ length) : page.minimum ≤ length / 4 * 4 := by
  have hdwords : page.minimum % 4 = 0 := by
    cases page with
    | log name => cases name <;> rfl
    | unitStatus => rfl
  omega

theorem four_le_of_minimum_le (hlong : page.minimum ≤ length) : 4 ≤ length := by
  refine Nat.le_trans ?_ hlong
  cases page with
  | log name => cases name <;> decide
  | unitStatus => decide

theorem fetched_of_minimum_le (hon : d.enabled = true) (hlong : page.minimum ≤ length)
    (hasked : page.minimum ≤ page.asked length)
    (htakes : Host.Takes m (min (page.size d) (page.asked length))) :
    page.Fetched d (page.fetch d m length) (min (page.size d) (page.asked length)) := by
  obtain ⟨hresult, hmemory⟩ := fetch_eq hon page m (four_le_of_minimum_le hlong)
  obtain ⟨hmoved, hread⟩ := Page.serve_of_takes hasked htakes
  constructor
  · rw [hresult, hmoved]
    rfl
  · rw [hmemory]
    exact hread

theorem fetch_of_lt_minimum (hon : d.enabled = true) (hlong : page.minimum ≤ length)
    (hasked : page.asked length < page.minimum) :
    (page.fetch d m length).result = .refused (.bufferTooSmall page.minimum (page.asked length)) ∧
      (page.fetch d m length).memory = m := by
  obtain ⟨hresult, hmemory⟩ := fetch_eq hon page m (four_le_of_minimum_le hlong)
  rw [hresult, hmemory, Page.serve_of_short hasked]
  exact ⟨rfl, rfl⟩

/-- The whole of what is asked for is moved if the device is told as much. -/
theorem fetched_iff (hshaped : d.configuration.Shaped) (hon : d.enabled = true)
    (hlong : page.minimum ≤ length) (htakes : Host.Takes m (min (page.size d) length)) :
    page.Fetched d (page.fetch d m length) (min (page.size d) (length / 4 * 4)) ↔
      min (page.size d) (length / 4 * 4) ≤ page.asked length := by
  have hsize := (size_bounds hshaped page).1
  have hdwords := minimum_le_dwords hlong
  have hle := asked_le page (four_le_of_minimum_le hlong)
  by_cases hasked : page.minimum ≤ page.asked length
  · have hfetched := fetched_of_minimum_le hon hlong hasked (htakes.mono (by omega))
    constructor
    · intro h
      have hcount := congrArg Completion.transferred (hfetched.result.symm.trans h.result)
      have hsame : min (page.size d) (page.asked length) =
          min (page.size d) (length / 4 * 4) := hcount
      omega
    · intro h
      have hsame : min (page.size d) (page.asked length) = min (page.size d) (length / 4 * 4) := by
        omega
      rwa [hsame] at hfetched
  · -- Told less than the header, the device is told less than is due, and it moves nothing.
    have hrefused := (fetch_of_lt_minimum (m := m) hon hlong (Nat.lt_of_not_le hasked)).1
    constructor
    · intro h
      have hok := congrArg Completion.isOk (hrefused.symm.trans h.result)
      simp at hok
    · intro h
      omega

/-- What becomes of a fetch depends on the length that the device is told. If that is long enough
for the page, the page or as much of it as the device was told is moved, and else the fetch is
refused and the memory left alone. So all that was asked for, in whole dwords, is moved if and only
if the device is told as much: always for the unit status, and for a log page up to the largest
length that a command has room for. All that was asked for is the page if the length covers it. -/
theorem fetched_as_told (hd : d.Reachable ν) (hon : d.enabled = true)
    (hlong : page.minimum ≤ length) (htakes : Host.Takes m (min (page.size d) length)) :
    let s := page.fetch d m length
    let due := min (page.size d) (length / 4 * 4)
    let told := page.asked length
    (page.minimum ≤ told → page.Fetched d s (min (page.size d) told)) ∧
      (told < page.minimum →
        s.result = .refused (.bufferTooSmall page.minimum told) ∧ s.memory = m) ∧
      (page.Fetched d s due ↔ due ≤ told) ∧
      (page = unitStatus ∨ length < bitRange 34 + 4 → page.Fetched d s due) ∧
      (page.size d ≤ length → due = page.size d) := by
  intro s due told
  have hshaped := hd.shaped
  obtain ⟨-, hdwords, hsize⟩ := size_bounds hshaped page
  have hle := asked_le page (four_le_of_minimum_le hlong)
  have hiff := fetched_iff hshaped hon hlong htakes
  refine ⟨fun htold => fetched_of_minimum_le hon hlong htold (htakes.mono (by omega)),
    fetch_of_lt_minimum hon hlong, hiff, fun hroom => hiff.2 ?_, fun hcovers => ?_⟩
  · obtain rfl | hroom := hroom
    · -- The count of a management request stops at the largest one, which covers the page.
      have hlargest : bitRange 34 = bitRange 32 * 4 := by decide
      rw [asked]
      omega
    · rw [asked_of_lt page (four_le_of_minimum_le hlong) hroom]
      exact Nat.min_le_right _ _
  · have hwhole : page.size d ≤ length / 4 * 4 := by omega
    exact Nat.min_eq_left hwhole

/-- The status of the units is fetched in full also with a length that no command has room for. -/
theorem fetched_as_told_of_unitStatus :
    ∃ fresh, Device.build ⟨4096, 4, 8, 512, by decide⟩ {} (.steady 0 1) = .ok fresh ∧
      let d := fresh.run ([.enable] : List (Device.Request Host.Window))
      let m := Host.Window.whole (List.replicate 144 0)
      Device.Reachable Host.Window d ∧ d.enabled = true ∧ unitStatus.minimum ≤ 17179869192 ∧
        Host.Takes m (min (unitStatus.size d) 17179869192) ∧ unitStatus.size d = 144 ∧
        unitStatus.Fetched d (unitStatus.fetch d m 17179869192) 144 := by
  have hbuild : Device.build ⟨4096, 4, 8, 512, by decide⟩ {} (.steady 0 1) = .ok _ := rfl
  refine ⟨_, hbuild, ?_⟩
  intro d m
  have hd : Device.Reachable Host.Window d := ⟨_, _, _, _, hbuild, _, rfl⟩
  have hon : d.enabled = true := by decide +kernel
  have hunits : d.configuration.units.size = 4 := by decide +kernel
  have hsize : unitStatus.size d = 144 := by rw [size_unitStatus, hunits]
  have hlimit : m.limit = 144 := List.length_replicate
  have htakes : Host.Takes m (min (unitStatus.size d) 17179869192) :=
    .window (by rw [hlimit, hsize]; exact Nat.min_le_left _ _)
  have hlong : unitStatus.minimum ≤ 17179869192 := by decide
  obtain ⟨-, -, -, hfetched, hwhole⟩ := fetched_as_told hd hon hlong htakes
  refine ⟨hd, hon, hlong, htakes, hsize, ?_⟩
  have hall := hfetched (.inl rfl)
  rwa [hwhole (hsize ▸ by decide), hsize] at hall

/-- A length of two dwords more than a command has room for is cut down to two dwords on its way to
the device, and only they are moved; one of one dword more is cut down to less than the page can be
asked for. -/
theorem curtailed_fetch_of_long_request :
    ∃ fresh, Device.build ⟨4096, 4, 8, 512, by decide⟩ {} (.steady 0 1) = .ok fresh ∧
      let d := fresh.run ([.enable] : List (Device.Request Host.Window))
      let page := log .statistics
      let m := Host.Window.whole (List.replicate 640 0)
      let length := 17179869192
      Device.Reachable Host.Window d ∧ d.enabled = true ∧ page.minimum ≤ length ∧
        length < bitRange 64 ∧ Host.Takes m (page.size d) ∧
        min (page.size d) (length / 4 * 4) = 640 ∧
        (page.fetch d m length).result = .done 8 ∧ ¬ page.Fetched d (page.fetch d m length) 640 ∧
        (page.fetch d m (length - 4)).result = .refused (.bufferTooSmall 8 4) := by
  have hbuild : Device.build ⟨4096, 4, 8, 512, by decide⟩ {} (.steady 0 1) = .ok _ := rfl
  refine ⟨_, hbuild, ?_⟩
  intro d page m length
  have hon : d.enabled = true := by decide +kernel
  have hsize : page.size d = 640 := size_statistics d
  have hlimit : m.limit = 640 := List.length_replicate
  have htakes : Host.Takes m (page.size d) := .window (by rw [hlimit, hsize])
  have hlong : page.minimum ≤ length := by decide
  have hdue : min (page.size d) (length / 4 * 4) = 640 := by
    rw [hsize]
    exact Nat.min_eq_left (by decide)
  have htold : page.asked length = 8 := by decide
  have hmoved := (fetched_of_minimum_le hon hlong (by rw [htold]; decide)
    (htakes.mono (Nat.min_le_left _ _))).result
  rw [hsize, htold] at hmoved
  have hcurtailed : ¬ page.Fetched d (page.fetch d m length) 640 := by
    intro h
    have hcount := congrArg Completion.transferred (hmoved.symm.trans h.result)
    exact absurd hcount (by decide)
  exact ⟨⟨_, _, _, _, hbuild, _, rfl⟩, hon, hlong, by decide, htakes, hdue, hmoved, hcurtailed,
    (fetch_of_lt_minimum hon (by decide) (by decide)).1⟩

/-- What a dump gives for what the device is told: the start of the page, or why it is refused. -/
def dumped (d : Device) (page : HostPage) (told : Nat) : Except Scenario.Failure (List UInt8) :=
  if page.minimum ≤ told then .ok ((page.content d).take (min (page.size d) told))
  else .error (.pageRefused page.name (Error.bufferTooSmall page.minimum told).status)

/-- What is received of a fetch, from the bytes of a memory that is read from its start. -/
theorem received_fetch (hon : d.enabled = true) (hlong : page.minimum ≤ length)
    (htakes : Host.Takes m (min (page.size d) (page.asked length))) (bytes : μ → List UInt8)
    (hbytes : ∀ (m : μ) (n : Nat) (data : List UInt8),
      (Host.Memory.readAt m 0 n).1 = .ok data → (bytes m).take n = data) :
    page.received (page.fetch d m length).result (bytes (page.fetch d m length).memory) =
      dumped d page (page.asked length) := by
  rw [received, dumped]
  by_cases hasked : page.minimum ≤ page.asked length
  · obtain ⟨hresult, hread⟩ := fetched_of_minimum_le hon hlong hasked htakes
    rw [hresult, if_pos hasked, if_pos (Completion.isOk_done _)]
    exact congrArg Except.ok (hbytes _ _ _ hread)
  · rw [(fetch_of_lt_minimum hon hlong (Nat.lt_of_not_le hasked)).1, if_neg hasked]
    simp only [Completion.isOk_refused, Bool.false_eq_true, if_false]
    rfl

/-- A buffer of the requested length is enough, also if the page is longer. -/
theorem fetchBytes_eq (hon : d.enabled = true) (hlong : page.minimum ≤ length) :
    page.fetchBytes d length = dumped d page (page.asked length) := by
  have hle := asked_le page (four_le_of_minimum_le hlong)
  have hlimit : (Host.Window.whole (List.replicate (min length (page.size d)) 0)).limit =
      min length (page.size d) := List.length_replicate
  exact received_fetch hon hlong (.window (by omega)) Host.Window.bytes
    fun _ _ _ => Host.Window.take_of_readAt

/-- A file gets what a buffer gets. -/
theorem fetchFile_eq (hd : d.Reachable ν) (hon : d.enabled = true) (hlong : page.minimum ≤ length) :
    page.fetchFile d length = dumped d page (page.asked length) := by
  have hsize := (size_bounds hd.shaped page).2.2
  have hfile : bitRange 34 < bitRange 63 := by decide
  exact received_fetch hon hlong (.store (by omega)) Host.Store.bytes
    fun _ _ _ => Host.Store.take_of_readAt

end Fetching

end HostPage

end DataPlacement
