import DataPlacement.Proofs.Configuration.Descent
import DataPlacement.Proofs.Statistics

namespace DataPlacement

/-! ### Widths -/

namespace Configuration

/-- An identifier fits into 16 bits, also if a wide handle reaches into the group. -/
theorem packIdentifier_lt {groupBits group handle : Nat} (hhandle : handle < bitRange 16) :
    packIdentifier groupBits group handle < bitRange 16 := by
  unfold packIdentifier
  split
  · exact hhandle
  · rw [bitRange_eq_two_pow] at hhandle ⊢
    refine Nat.or_lt_two_pow ?_ hhandle
    rw [lowBits, bitRange_eq_two_pow]
    exact Nat.mod_lt _ (Nat.two_pow_pos 16)

namespace Shaped

variable {c : Configuration} {u : UnitId} {unit : ReclaimUnit}

theorem handles_lt (h : c.Shaped) : c.handles < bitRange 16 :=
  Nat.lt_of_le_of_lt h.table (by decide)

theorem groups_lt (h : c.Shaped) : c.groups < bitRange 16 :=
  Nat.lt_of_le_of_lt (Nat.le_mul_of_pos_right _ h.handles) h.count

theorem identifierOf_lt (h : c.Shaped) (hunit : c.unit? u = some unit) :
    c.identifierOf unit < bitRange 16 :=
  packIdentifier_lt (Nat.lt_trans (h.lt_of_unit hunit).2 h.handles_lt)

end Shaped

end Configuration

/-- Numbers below a bound have a sum below as many times the bound. -/
theorem sumOf_le_mul {α : Type} {quantity : α → Nat} {items : List α} {bound : Nat}
    (h : ∀ item ∈ items, quantity item ≤ bound) : sumOf quantity items ≤ items.length * bound := by
  induction items with
  | nil => exact Nat.zero_le _
  | cons item items ih =>
    obtain ⟨hitem, hitems⟩ := List.forall_mem_cons.1 h
    rw [sumOf_cons, List.length_cons, Nat.add_mul, Nat.one_mul, Nat.add_comm]
    exact Nat.add_le_add (ih hitems) hitem

/-- The numbers that a device keeps in machine words: those that it was built for, those of the
lines, and the sizes and counters of the units. -/
structure WordSized (g : Geometry) (params : Parameters) (c : Configuration) (p : Pool) : Prop where
  attributes : params.attributes < bitRange 8
  pageSize : g.pageSize < bitRange 32
  pagesPerLine : p.pagesPerLine < bitRange 32
  lines : p.lines.size < bitRange 32
  erases : ∀ l ∈ p.lines, l.erases < bitRange 32
  units : ∀ unit ∈ c.units, unit.capacity < bitRange 64 ∧ unit.hostBytes < bitRange 64 ∧
    unit.mediaBytes < bitRange 64 ∧ unit.writes < bitRange 64

namespace WordSized

variable {g : Geometry} {params : Parameters} {c : Configuration} {p : Pool}

/-- The bytes of a line fit into a word, since both factors fit into half of one. -/
theorem lineBytes_lt (h : WordSized g params c p) : p.pagesPerLine * g.pageSize < bitRange 64 := by
  rw [bitRange_add 32 32]
  exact Nat.mul_lt_mul'' h.pagesPerLine h.pageSize

/-- So do the erasures of any lines. -/
theorem wearOf_lt (h : WordSized g params c p) (u : UnitId) : p.wearOf u < bitRange 64 := by
  -- At most as many lines as there are, each erased at most as often as its record can count.
  have hsum : p.wearOf u ≤
      (p.lines.toList.filter (·.isOwnedBy u)).length * (bitRange 32 - 1) :=
    sumOf_le_mul fun l hl =>
      Nat.le_pred_of_lt (h.erases l (by simpa using List.mem_of_mem_filter hl))
  have hcount : (p.lines.toList.filter (·.isOwnedBy u)).length ≤ p.lines.size := by
    simpa using List.length_filter_le (·.isOwnedBy u) p.lines.toList
  calc p.wearOf u ≤ p.lines.size * (bitRange 32 - 1) :=
        Nat.le_trans hsum (Nat.mul_le_mul_right _ hcount)
    _ ≤ bitRange 32 * (bitRange 32 - 1) := Nat.mul_le_mul_right _ (Nat.le_of_lt h.lines)
    _ < bitRange 64 := by decide

/-- Every number on the statistics page fits into its word. -/
theorem counter_lt (h : WordSized g params c p) {value : ReclaimUnit → Nat}
    (hvalue : value ∈ Page.counters p) {unit : ReclaimUnit} (hunit : unit ∈ c.units) :
    value unit < bitRange 64 := by
  obtain ⟨-, hhost, hmedia, hwrites⟩ := h.units unit hunit
  simp only [Page.counters, List.mem_cons, List.not_mem_nil, or_false] at hvalue
  obtain rfl | rfl | rfl | rfl | rfl := hvalue
  · exact hhost
  · exact hmedia
  · exact hwrites
  · exact bitRange_pos 64
  · exact h.wearOf_lt unit.id

end WordSized

namespace Page

open Host Host.Reader

/-! ### Readers of the pages -/

/-- What a descriptor of a unit handle tells. -/
structure HandleDescriptor where
  kind : Nat
  handle : Nat
  deriving DecidableEq

/-- What the descriptor of a configuration tells: the bytes that it takes up, the numbers of groups
and handles, the entries of the table of placement handles, the bytes of a unit's line, and its
handles. -/
structure ConfigurationDescriptor where
  size : Nat
  attributes : Nat
  groups : Nat
  handles : Nat
  entries : Nat
  lineBytes : Nat
  descriptors : List HandleDescriptor
  deriving DecidableEq

structure ConfigurationsReading where
  version : Nat
  size : Nat
  configurations : List ConfigurationDescriptor
  deriving DecidableEq

def readHandle : Reader HandleDescriptor := do
  let kind ← number 1
  skip 1
  let handle ← number 2
  return { kind, handle }

/-- Reads what follows the size of a descriptor. -/
def readConfigurationBody (size : Nat) : Reader ConfigurationDescriptor := do
  let attributes ← number 1
  skip 1
  let groups ← number 4
  let handles ← number 2
  let entries ← number 2
  skip 4
  let lineBytes ← number 8
  skip 4
  skip 36
  let descriptors ← times readHandle handles
  return { size, attributes, groups, handles, entries, lineBytes, descriptors }

/-- A descriptor has as many bytes as it says. -/
def readConfiguration : Reader ConfigurationDescriptor := do
  let size ← number 2
  within (size - 2) (readConfigurationBody size)

/-- So has the page, whose header has the number of descriptors. -/
def readConfigurations : Reader ConfigurationsReading := do
  let count ← number 2
  let version ← number 1
  skip 1
  let size ← number 4
  skip 8
  let configurations ← within (size - configurationsHeader) (times readConfiguration count)
  return { version, size, configurations }

/-- What the descriptor of a unit tells. -/
structure UnitDescriptor where
  identifier : Nat
  handle : Nat
  remainingBytes : Nat
  deriving DecidableEq

def readUnit : Reader UnitDescriptor := do
  let identifier ← number 2
  let handle ← number 2
  skip 4
  let remainingBytes ← number 8
  skip 16
  return { identifier, handle, remainingBytes }

structure UnitStatusReading where
  count : Nat
  units : List UnitDescriptor
  deriving DecidableEq

/-- Reads the descriptors of as many units as the header says. -/
def readUnitStatus : Reader UnitStatusReading := do
  skip 14
  let count ← number 2
  let units ← times readUnit count
  return { count, units }

/-- The number of eight bytes at an offset. -/
def word (page : List UInt8) (offset : Nat) : Nat := ofLittleEndian ((page.drop offset).take 8)

/-! ### Reading back -/

section Reading

variable {g : Geometry} {params : Parameters} {c : Configuration} {p : Pool}

theorem reads_zeroBytes (count : Nat) : Reads (skip count) (zeroBytes count) () :=
  .skip List.length_replicate

/-- The descriptor of a unit handle, of the kind that starts out isolated. -/
def encodeHandle (handle : Nat) : List UInt8 :=
  littleEndian 1 1 ++ zeroBytes 1 ++ littleEndian 2 handle

theorem length_encodeHandle (handle : Nat) : (encodeHandle handle).length = 4 := rfl

theorem reads_handle {handle : Nat} (hhandle : handle < bitRange 16) :
    Reads readHandle (encodeHandle handle) { kind := 1, handle } := by
  rw [encodeHandle, List.append_assoc]
  exact (Reads.number (by decide)).bind <| (reads_zeroBytes 1).bind <|
    (Reads.number hhandle).last (HandleDescriptor.mk 1)

theorem reads_handles {handles : Nat} (hhandles : handles < bitRange 16) :
    Reads (times readHandle handles) ((List.range handles).map encodeHandle).flatten
      ((List.range handles).map (HandleDescriptor.mk 1)) := by
  have hread : Reads (times readHandle (List.range handles).length) _ _ :=
    .times fun handle hmem => reads_handle (Nat.lt_trans (List.mem_range.1 hmem) hhandles)
  rwa [List.length_range] at hread

/-- What the configurations page tells of a configuration. -/
def describe (c : Configuration) (p : Pool) : ConfigurationDescriptor where
  size := descriptorSize c.handles
  attributes := c.attributes
  groups := c.groups
  handles := c.handles
  entries := maxHandles
  lineBytes := p.pagesPerLine * c.pageSize
  descriptors := (List.range c.handles).map (HandleDescriptor.mk 1)

/-- The descriptor on the configurations page behind its size. -/
def configurationBody (c : Configuration) (p : Pool) : List UInt8 :=
  littleEndian 1 c.attributes ++ (zeroBytes 1 ++ (littleEndian 4 c.groups ++
    (littleEndian 2 c.handles ++ (littleEndian 2 maxHandles ++ (zeroBytes 4 ++
      (littleEndian 8 (p.pagesPerLine * c.pageSize) ++ (zeroBytes 4 ++ (zeroBytes 36 ++
        ((List.range c.handles).map encodeHandle).flatten))))))))

theorem configurations_eq (c : Configuration) (p : Pool) :
    configurations c p = littleEndian 2 1 ++ (littleEndian 1 1 ++ (zeroBytes 1 ++
      (littleEndian 4 (configurationsSize c.handles) ++ (zeroBytes 8 ++
        ((littleEndian 2 (descriptorSize c.handles) ++ configurationBody c p) ++ []))))) := by
  unfold configurations configurationBody encodeHandle
  simp only [List.append_assoc, List.append_nil]

theorem length_configurationBody (c : Configuration) (p : Pool) :
    (configurationBody c p).length = 62 + 4 * c.handles := by
  have hhandles : ((List.range c.handles).map encodeHandle).flatten.length = 4 * c.handles := by
    rw [length_flatten_map length_encodeHandle, List.length_range]
  simp only [configurationBody, List.length_append, length_littleEndian, zeroBytes,
    List.length_replicate, hhandles]
  omega

theorem reads_configurationBody (h : c.Shaped) (hattributes : c.attributes < bitRange 8)
    (hline : p.pagesPerLine * c.pageSize < bitRange 64) :
    Reads (readConfigurationBody (descriptorSize c.handles)) (configurationBody c p)
      (describe c p) := by
  have hgroups : c.groups < bitRange (8 * 4) := Nat.lt_trans h.groups_lt (by decide)
  exact (Reads.number hattributes).bind <| (reads_zeroBytes 1).bind <|
    (Reads.number hgroups).bind <| (Reads.number h.handles_lt).bind <|
    (Reads.number (by decide)).bind <| (reads_zeroBytes 4).bind <| (Reads.number hline).bind <|
    (reads_zeroBytes 4).bind <| (reads_zeroBytes 36).bind <| (reads_handles h.handles_lt).last _

theorem length_configurations (c : Configuration) (p : Pool) :
    (configurations c p).length = configurationsSize c.handles := by
  rw [configurations_eq]
  simp only [List.length_append, length_littleEndian, zeroBytes, List.length_replicate,
    length_configurationBody, List.length_nil, configurationsSize, descriptorSize,
    configurationsHeader]
  omega

theorem reads_configuration (h : c.Shaped) (hattributes : c.attributes < bitRange 8)
    (hline : p.pagesPerLine * c.pageSize < bitRange 64) :
    Reads readConfiguration
      (littleEndian 2 (descriptorSize c.handles) ++ configurationBody c p) (describe c p) := by
  have hsize : descriptorSize c.handles < bitRange (8 * 2) :=
    Nat.lt_of_le_of_lt (Nat.add_le_add_left (Nat.mul_le_mul_left 4 h.table) 64) (by decide)
  refine (Reads.number hsize).bind ((reads_configurationBody h hattributes hline).within ?_)
  rw [length_configurationBody, descriptorSize]
  omega

theorem reads_configurations (h : c.Shaped) (hattributes : c.attributes < bitRange 8)
    (hline : p.pagesPerLine * c.pageSize < bitRange 64) :
    Reads readConfigurations (configurations c p)
      { version := 1, size := configurationsSize c.handles, configurations := [describe c p] } := by
  have hsize : configurationsSize c.handles < bitRange (8 * 4) :=
    Nat.lt_of_le_of_lt (Nat.add_le_add_left
      (Nat.add_le_add_left (Nat.mul_le_mul_left 4 h.table) 64) 16) (by decide)
  -- The header tells of one configuration, which the descriptor behind it fills up to the end.
  have hone : Reads (times readConfiguration 1) _ [describe c p] :=
    (reads_configuration h hattributes hline).bind ((Reads.pure []).last (describe c p :: ·))
  rw [configurations_eq]
  refine (Reads.number (by decide)).bind <| (Reads.number (by decide)).bind <|
    (reads_zeroBytes 1).bind <| (Reads.number hsize).bind <| (reads_zeroBytes 8).bind <|
    (hone.within ?_).last (ConfigurationsReading.mk 1 (configurationsSize c.handles))
  rw [List.append_nil, List.length_append, length_littleEndian, length_configurationBody,
    configurationsSize, descriptorSize]
  omega

/-- What the unit status page tells of a unit. -/
def describeUnit (c : Configuration) (unit : ReclaimUnit) : UnitDescriptor where
  identifier := c.identifierOf unit
  handle := unit.handle
  remainingBytes := unit.capacity - unit.hostBytes

/-- The descriptor of a unit on the unit status page. -/
def encodeUnit (c : Configuration) (unit : ReclaimUnit) : List UInt8 :=
  littleEndian 2 (c.identifierOf unit) ++ littleEndian 2 unit.handle ++ zeroBytes 4
    ++ littleEndian 8 unit.remainingBytes ++ zeroBytes 16

theorem length_encodeUnit (c : Configuration) (unit : ReclaimUnit) :
    (encodeUnit c unit).length = 32 := by
  simp only [encodeUnit, List.length_append, length_littleEndian, zeroBytes, List.length_replicate]

theorem reads_unit {unit : ReclaimUnit} (hidentifier : c.identifierOf unit < bitRange 16)
    (hhandle : unit.handle < bitRange 16) (hcapacity : unit.capacity < bitRange 64) :
    Reads readUnit (encodeUnit c unit) (describeUnit c unit) := by
  have hremaining : unit.remainingBytes < bitRange 64 :=
    Nat.lt_of_le_of_lt (Nat.sub_le _ _) hcapacity
  simp only [encodeUnit, List.append_assoc]
  exact (Reads.number hidentifier).bind <| (Reads.number hhandle).bind <|
    (reads_zeroBytes 4).bind <| (Reads.number hremaining).bind <| (reads_zeroBytes 16).last _

theorem length_unitStatus (c : Configuration) :
    (unitStatus c).length = 16 + 32 * c.units.size := by
  have hunits : (c.units.toList.map (encodeUnit c)).flatten.length = 32 * c.units.size := by
    rw [length_flatten_map (length_encodeUnit c), Array.length_toList]
  have hpage : unitStatus c = zeroBytes 14 ++ littleEndian 2 c.units.size ++
      (c.units.toList.map (encodeUnit c)).flatten := rfl
  rw [hpage, List.length_append, hunits, List.length_append, length_littleEndian, zeroBytes,
    List.length_replicate]

theorem reads_unitStatus (h : c.Shaped)
    (hcapacity : ∀ unit ∈ c.units, unit.capacity < bitRange 64) :
    Reads readUnitStatus (unitStatus c)
      { count := c.units.size, units := c.units.toList.map (describeUnit c) } := by
  have hcount : c.units.size < bitRange (8 * 2) := h.size ▸ h.count
  have hunits : Reads (times readUnit c.units.size) (c.units.toList.map (encodeUnit c)).flatten
      (c.units.toList.map (describeUnit c)) := by
    rw [← Array.length_toList]
    refine .times fun unit hmem => ?_
    rw [Array.mem_toList_iff] at hmem
    obtain ⟨u, hunit⟩ := Array.getElem?_of_mem hmem
    exact reads_unit (h.identifierOf_lt hunit)
      (Nat.lt_trans (h.lt_of_unit hunit).2 h.handles_lt) (hcapacity unit hmem)
  have hpage : unitStatus c = zeroBytes 14 ++ (littleEndian 2 c.units.size ++
      (c.units.toList.map (encodeUnit c)).flatten) := List.append_assoc _ _ _
  rw [hpage]
  exact (reads_zeroBytes 14).bind <| (Reads.number hcount).bind <|
    hunits.last (UnitStatusReading.mk c.units.size)

/-- The words of the statistics page, table by table. -/
theorem word_statistics (hwords : WordSized g params c p) {k u : Nat} {value : ReclaimUnit → Nat}
    (hvalue : (counters p)[k]? = some value) {unit : ReclaimUnit} (hslot : u < statisticsSlots)
    (hunit : c.unit? u = some unit) :
    word (statistics c p) (128 * k + 8 * u) = value unit := by
  have hlisted : c.units.toList[u]? = some unit := by rwa [Array.getElem?_toList]
  rw [word, word_of_table c p hvalue hslot, word_of_statisticsTable value hslot hlisted]
  exact ofLittleEndian_littleEndian
    (hwords.counter_lt (List.mem_of_getElem? hvalue) (Array.mem_of_getElem? hunit))

theorem word_statistics_of_le {k u : Nat} (hk : k < 5) (hslot : u < statisticsSlots)
    (hunused : c.units.size ≤ u) : word (statistics c p) (128 * k + 8 * u) = 0 := by
  have hvalue : (counters p)[k]? = some (counters p)[k] := List.getElem?_eq_getElem hk
  rw [word, word_of_table c p hvalue hslot, word_of_statisticsTable_of_le _ hslot
    (by rwa [Array.length_toList])]
  rfl

end Reading

/-- A host recovers from the pages what they were laid out from, whatever was built and however it
was used since, and with any lines: no number is cut by its width, and each page is exactly as long
as it says. The descriptors of the handles are numbered, and those of the units are in the order of
the units. On the statistics page each table has a word for each of the first units, and zeros
behind them. -/
theorem pages_read_back {g : Geometry} {params : Parameters} {fresh c : Configuration} {p : Pool}
    (hbuild : Configuration.build g params = .ok fresh) (hc : Configuration.Descends fresh c)
    (hwords : WordSized g params c p) :
    (configurations c p).length = 80 + 4 * params.handles ∧
      readConfigurations.whole (configurations c p) = some {
        version := 1
        size := (configurations c p).length
        configurations := [{
          size := (configurations c p).length - 16
          attributes := params.attributes
          groups := params.groups
          handles := params.handles
          entries := 128
          lineBytes := p.pagesPerLine * g.pageSize
          descriptors := (List.range params.handles).map fun handle => ⟨1, handle⟩ }] } ∧
      (unitStatus c).length = 16 + 32 * c.units.size ∧
      readUnitStatus.whole (unitStatus c) = some {
        count := c.units.size
        units := c.units.toList.map fun unit =>
          ⟨c.identifierOf unit, unit.handle, unit.capacity - unit.hostBytes⟩ } ∧
      (statistics c p).length = 640 ∧
      (∀ u < 16, ∀ unit, c.unit? u = some unit → unit.id = u ∧
        ∀ k value, (counters p)[k]? = some value →
          word (statistics c p) (128 * k + 8 * u) = value unit) ∧
      (∀ u < 16, c.units.size ≤ u → ∀ k < 5, word (statistics c p) (128 * k + 8 * u) = 0) := by
  have hshaped := hc.shaped hbuild
  obtain ⟨hgroups, hhandles⟩ := hc.parameters hbuild
  have hattributes := hc.attributes hbuild
  have hpage := hc.pageSize hbuild
  have hcapacity : ∀ unit ∈ c.units, unit.capacity < bitRange 64 := fun unit hunit =>
    (hwords.units unit hunit).1
  have hlength : (configurations c p).length = 80 + 4 * params.handles := by
    rw [length_configurations, hhandles, configurationsSize, descriptorSize, configurationsHeader]
    omega
  refine ⟨hlength, ?_, length_unitStatus c, (reads_unitStatus hshaped hcapacity).whole,
    length_statistics c p, fun u hslot unit hunit => ?_, fun u hslot hunused k hk => ?_⟩
  · -- What is read back is what the configuration has now, which is what it was built from.
    have hread := reads_configurations hshaped (hattributes ▸ hwords.attributes)
      (hpage ▸ hwords.lineBytes_lt)
    have hdescriptor : (configurations c p).length - 16 = descriptorSize c.handles := by
      rw [length_configurations, configurationsSize, configurationsHeader]
      omega
    rw [hdescriptor, length_configurations, ← hattributes, ← hgroups, ← hhandles, ← hpage]
    exact hread.whole
  · exact ⟨(hshaped.numbered u unit hunit).1, fun k value hvalue =>
      word_statistics hwords hvalue hslot hunit⟩
  · exact word_statistics_of_le hk hslot hunused

/-- Two groups of two units, of which the last was written. -/
theorem pages_read_back_after_write :
    ∃ fresh, Configuration.build ⟨4096, 4, 8, 512, by decide⟩ { groups := 2, handles := 2 } =
        .ok fresh ∧
      let dealt := (fresh.enable (.erased 8 4) (.steady 0 1)).state
      let written := (dealt.1.write dealt.2.1 ⟨1, 1⟩ 0 8192 1).state
      Configuration.Descends fresh written.1 ∧
        WordSized ⟨4096, 4, 8, 512, by decide⟩ { groups := 2, handles := 2 } written.1 written.2 ∧
        readUnitStatus.whole (unitStatus written.1) = some
          ⟨4, [⟨0, 0, 32768⟩, ⟨1, 1, 32768⟩, ⟨0x8000, 0, 32768⟩, ⟨0x8001, 1, 24576⟩]⟩ ∧
        word (statistics written.1 written.2) (128 * 1 + 8 * 3) = 8192 := by
  have hbuild : Configuration.build ⟨4096, 4, 8, 512, by decide⟩ { groups := 2, handles := 2 } =
    .ok _ := rfl
  refine ⟨_, hbuild, ?_⟩
  intro dealt written
  have hc : Configuration.Descends _ written.1 := .written (.enabled .unused _ _) _ _ _ _ _
  obtain ⟨⟨hpages, hsize, herases, hunits⟩, hmedia, hvalues⟩ :
      (written.2.pagesPerLine < bitRange 32 ∧ written.2.lines.size < bitRange 32 ∧
        (∀ l ∈ written.2.lines, l.erases < bitRange 32) ∧
        ∀ unit ∈ written.1.units, unit.capacity < bitRange 64 ∧ unit.hostBytes < bitRange 64 ∧
          unit.mediaBytes < bitRange 64 ∧ unit.writes < bitRange 64) ∧
      (written.1.unit? 3).map (·.mediaBytes) = some 8192 ∧
      UnitStatusReading.mk written.1.units.size (written.1.units.toList.map fun unit =>
          ⟨written.1.identifierOf unit, unit.handle, unit.capacity - unit.hostBytes⟩) =
        ⟨4, [⟨0, 0, 32768⟩, ⟨1, 1, 32768⟩, ⟨0x8000, 0, 32768⟩, ⟨0x8001, 1, 24576⟩]⟩ := by
    decide +kernel
  have hwords : WordSized ⟨4096, 4, 8, 512, by decide⟩ { groups := 2, handles := 2 } written.1
      written.2 :=
    ⟨by decide, by decide, hpages, hsize, herases, hunits⟩
  obtain ⟨unit, hunit, hmedia⟩ := Option.map_eq_some_iff.1 hmedia
  obtain ⟨-, -, -, hstatus, -, hcounters, -⟩ := pages_read_back hbuild hc hwords
  refine ⟨hc, hwords, hstatus.trans (congrArg some hvalues), ?_⟩
  exact ((hcounters 3 (by decide) unit hunit).2 1 _ rfl).trans hmedia

end Page

end DataPlacement
