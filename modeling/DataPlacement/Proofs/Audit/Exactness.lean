import DataPlacement.Proofs.Audit.Writers

namespace DataPlacement.Audit

/-! ### Listed lines -/

section Listed

variable {p : Pool} {seen : Array Bool} {ids : List LineId}

/-- Lines that are listed without an error are free lines, none of them listed before and none of
them listed twice, since each one is marked when it is met. -/
theorem of_clean_listedFindings (hsize : seen.size = p.lines.size)
    (h : Clean (listedFindings p seen ids)) :
    ids.Nodup ∧ (∀ id ∈ ids, seen[id]? ≠ some true) ∧
      ∀ id ∈ ids, ∃ l, p.lines[id]? = some l ∧ l.state = .free := by
  induction ids generalizing seen with
  | nil => simp
  | cons id ids ih =>
    obtain ⟨hplace, hrest⟩ := clean_append.1 h
    cases hline : p.lines[id]? with
    | none =>
      rw [hline] at hplace
      exact absurd hplace not_clean_failure
    | some l =>
      rw [hline] at hplace
      obtain ⟨hnew, hfree⟩ := clean_append.1 hplace
      have hnew : seen[id]? ≠ some true := of_decide_eq_true (fine_of_clean hnew)
      have hfree : l.state = .free := of_decide_eq_true (fine_of_clean hfree)
      obtain ⟨hnodup, hfresh, hstates⟩ := ih (by simpa using hsize) hrest
      have hid : id < seen.size := by
        rw [hsize]
        exact (Array.getElem?_eq_some_iff.1 hline).1
      have hmarked : id ∉ ids := fun hid' => hfresh id hid' (by simp [hid])
      have hearlier : ∀ i ∈ ids, seen[i]? ≠ some true := by
        intro i hi
        have hne : id ≠ i := fun heq => hmarked (heq ▸ hi)
        have hlater := hfresh i hi
        rwa [Array.getElem?_setIfInBounds_ne hne] at hlater
      exact ⟨List.nodup_cons.2 ⟨hmarked, hnodup⟩, List.forall_mem_cons.2 ⟨hnew, hearlier⟩,
        List.forall_mem_cons.2 ⟨⟨l, hline, hfree⟩, hstates⟩⟩

theorem clean_listedFindings_iff :
    Clean (listedFindings p (.replicate p.lines.size false) ids) ↔
      ids.Nodup ∧ ∀ id ∈ ids, ∃ l, p.lines[id]? = some l ∧ l.state = .free := by
  constructor
  · intro h
    obtain ⟨hnodup, -, hfree⟩ := of_clean_listedFindings (by simp) h
    exact ⟨hnodup, hfree⟩
  · rintro ⟨hnodup, hfree⟩
    rw [listedFindings_eq_nil hnodup (by simp [Array.getElem?_replicate]) hfree]
    exact List.forall_mem_nil _

end Listed

/-! ### The phase -/

variable {d : Device}

/-- What each part of the phase finds. -/
theorem clean_partition_parts (d : Device) :
    Clean (partition d) ↔
      Clean (listedFindings d.pool (.replicate d.pool.lines.size false) d.pool.listedLines) ∧
        d.pool.countState .free = d.pool.listedLines.length ∧
        d.pool.listedLines.length + d.pool.countState .active + d.pool.countState .full =
          d.pool.lines.size ∧
        writerCount d = d.pool.countState .active := by
  rw [partition, listedLines_eq, clean_append, clean_append, clean_append, clean_expect_iff,
    clean_expect_iff, clean_expect_iff, decide_eq_true_eq, decide_eq_true_eq, decide_eq_true_eq,
    and_assoc, and_assoc]

/-- Whatever the state of a device, the first phase of its check finds no error if and only if the
shared list and the lists of the units, one after the other, name no line twice, name no line that
there is not, and name exactly the lines that are free, and as many lines are active as writers have
a current line. -/
theorem clean_partition_iff (d : Device) :
    Clean (partition d) ↔
      d.pool.listedLines.Nodup ∧
        (∀ id ∈ d.pool.listedLines, id < d.pool.lines.size) ∧
        (∀ id : LineId, id ∈ d.pool.listedLines ↔
          ∃ l, d.pool.lines[id]? = some l ∧ l.state = .free) ∧
        (d.pool.linesIn .active).length = (currentLines d).length := by
  rw [clean_partition_parts, clean_listedFindings_iff, Pool.length_linesIn, writerCount_eq]
  constructor
  · rintro ⟨⟨hnodup, hfree⟩, hcount, -, hwriters⟩
    refine ⟨hnodup, fun id hid => ?_, Pool.mem_iff_of_countState_le hnodup hfree hcount.le,
      hwriters.symm⟩
    obtain ⟨l, hline, -⟩ := hfree id hid
    exact (Array.getElem?_eq_some_iff.1 hline).1
  · rintro ⟨hnodup, -, hmem, hwriters⟩
    have hcount := Pool.countState_eq_length hnodup hmem
    refine ⟨⟨hnodup, fun id => (hmem id).1⟩, hcount, ?_, hwriters.symm⟩
    rw [← hcount]
    exact d.pool.countState_sum

end DataPlacement.Audit
