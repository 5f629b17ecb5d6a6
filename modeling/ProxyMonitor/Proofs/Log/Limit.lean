import ProxyMonitor.Proofs.Log.Rotation

/-! How large the files of a log get: no larger than its limit, but for a single buffer that is larger by itself. Each step is
described by what its success tells, so this holds in any directory: an archive may be a directory, and a roll may move it. -/
namespace ProxyMonitor.Log.Rotation
variable {r s u : Rotation} {place : List String} {live bytes : List UInt8} {j k : Nat}

/-- The file with this number has this content. -/
def Has (r : Rotation) (place : List String) (k : Nat) (content : List UInt8) : Prop :=
  r.files.entry? (r.slot place k) = some (.file content)

/-- The files of the log have got the next numbers, as far as they are kept. -/
def Shifts (r : Rotation) (place : List String) (s : Rotation) : Prop :=
  ∀ k < r.archives, ∀ content, r.Has place k content → s.Has place (k + 1) content

/-- The same log, with whatever files. -/
structure SameLog (r s : Rotation) : Prop where
  directory : s.directory = r.directory
  stem : s.stem = r.stem
  archives : s.archives = r.archives
  limit : s.limit = r.limit

theorem SameLog.trans (h : r.SameLog s) (next : s.SameLog u) : r.SameLog u :=
  ⟨next.directory.trans h.directory, next.stem.trans h.stem, next.archives.trans h.archives, next.limit.trans h.limit⟩

theorem SameLog.slot (h : r.SameLog s) : s.slot = r.slot := by
  funext place k
  rw [Rotation.slot, Rotation.slot, h.stem]

section Shift

/-- Nothing is at the number any more, and the log's other files are as they were. -/
theorem Performs.of_removeIfThere (h : Performs (removeIfThere (r.path k)) r () s) (stem : ∃ name, r.stem = fileStem name)
    (leads : r.files.Leads r.directory place) :
    ∃ files, s = { r with files } ∧ files.entry? (r.slot place k) = none ∧
      ∀ j, j ≠ k → files.entry? (r.slot place j) = r.files.entry? (r.slot place j) := by
  have h := h.of_get
  split at h
  · obtain ⟨files, removed, rfl⟩ := h.of_changeFiles
    have differs := leads.of_remove (isName stem k) removed
    exact ⟨files, rfl, (differs _).trans (if_pos rfl), fun j other => (differs _).trans (if_neg (slot_inj.not.mpr other))⟩
  · rename_i absent
    cases h
    rw [path, leads.hasPath_join (isName stem k)] at absent
    exact ⟨r.files, rfl, Option.not_isSome_iff_eq_none.mp absent, fun _ _ => rfl⟩

/-- A file of the log has got another number. -/
structure Moved (r : Rotation) (place : List String) (j k : Nat) (files : Files) : Prop where
  gone : files.entry? (r.slot place j) = none
  file : ∀ content, r.Has place j content → files.entry? (r.slot place k) = some (.file content)
  others : ∀ i, i ≠ j → i ≠ k → files.entry? (r.slot place i) = r.files.entry? (r.slot place i)

/-- What is moved may be a directory that the path of the log leads through. If the log's directory is found afterwards, it was
there before. -/
theorem Performs.of_moveIfThere (h : Performs (moveIfThere (r.path j) (r.path k)) r () s)
    (stem : ∃ name, r.stem = fileStem name) (distinct : j ≠ k) (place : List String) :
    ∃ files, s = { r with files } ∧
      (files.Leads r.directory place → r.files.Leads r.directory place ∧ r.Moved place j k files) := by
  have h := h.of_get
  split at h
  · rename_i there
    obtain ⟨files, moved, rfl⟩ := h.of_changeFiles
    obtain ⟨place', before⟩ := (isName stem j).leads_of_hasPath there
    refine ⟨files, rfl, fun leads => ?_⟩
    obtain rfl : place' = place := before.unique leads
    obtain ⟨gone, file, others⟩ := before.of_rename (isName stem j) (isName stem k) (fileName_inj.not.mpr distinct) moved
    refine ⟨before, gone, fun content has => (file content has).2, fun i apart apart' => others _ ?_ ?_⟩
    · exact Files.sibling_prefix_iff.not.mpr (fileName_inj.not.mpr apart.symm)
    · exact Files.sibling_prefix_iff.not.mpr (fileName_inj.not.mpr apart'.symm)
  · rename_i absent
    cases h
    refine ⟨r.files, rfl, fun leads => ?_⟩
    rw [path, leads.hasPath_join (isName stem j)] at absent
    have none : r.files.entry? (r.slot place j) = none := Option.not_isSome_iff_eq_none.mp absent
    refine ⟨leads, none, fun content has => ?_, fun _ _ _ => rfl⟩
    rw [Has, none] at has
    cases has

/-- The loop of a shift: the archives have got the next numbers, and no other file of the log has changed. -/
theorem Performs.of_moves {n : Nat}
    (h : Performs (each (List.range n).reverse fun g => moveIfThere (r.path (g + 1)) (r.path (g + 2))) r PUnit.unit s)
    (stem : ∃ name, r.stem = fileStem name) (place : List String) :
    ∃ files, s = { r with files } ∧ (files.Leads r.directory place → r.files.Leads r.directory place ∧
      (∀ k, k = 0 ∨ n + 1 < k → files.entry? (r.slot place k) = r.files.entry? (r.slot place k)) ∧
      ∀ k < n, ∀ content, r.Has place (k + 1) content → s.Has place (k + 2) content) := by
  induction n generalizing r with
  | zero =>
    cases h
    exact ⟨s.files, rfl, fun leads => ⟨leads, fun _ _ => rfl, nofun⟩⟩
  | succ n ih =>
    rw [List.range_succ, List.reverse_append, List.reverse_singleton, List.singleton_append, each_cons] at h
    obtain ⟨⟨⟩, m, first, rest⟩ := h.exists_bind
    obtain ⟨between, rfl, moved⟩ := first.of_moveIfThere stem (by omega) place
    obtain ⟨files, rfl, later⟩ := ih (r := { r with files := between }) rest stem
    refine ⟨files, rfl, fun leads => ?_⟩
    -- the oldest archive moves first, but whether the directory stayed in place is known from the end
    obtain ⟨reached, still, shifted⟩ := later leads
    obtain ⟨before, moved⟩ := moved reached
    refine ⟨before, fun k outside => ?_, fun k bound content has => ?_⟩
    · exact (still k (by omega)).trans (moved.others k (by omega) (by omega))
    · rcases Nat.lt_succ_iff_lt_or_eq.mp bound with below | rfl
      · exact shifted k below content ((moved.others (k + 1) (by omega) (by omega)).trans has)
      · exact (still (k + 2) (.inr (by omega))).trans (moved.file content has)

/-- After a shift the number of the file in use is free. -/
theorem Performs.of_shift (h : Performs shift r () s) (stem : ∃ name, r.stem = fileStem name)
    (before : r.files.Leads r.directory place) :
    ∃ files, s = { r with files } ∧
      (files.Leads r.directory place → files.entry? (r.slot place 0) = none ∧ r.Shifts place s) := by
  have h := h.of_get
  cases archives : r.archives with
  | zero =>
    rw [archives] at h
    obtain ⟨files, rfl, gone, -⟩ := Performs.of_removeIfThere (k := 0) h stem before
    exact ⟨files, by rw [← archives], fun _ => ⟨gone, fun k kept => absurd kept (by omega)⟩⟩
  | succ oldest =>
    rw [archives] at h
    obtain ⟨⟨⟩, m, removes, h⟩ := h.exists_bind
    obtain ⟨⟨⟩, m', moves, last⟩ := h.exists_bind
    obtain ⟨first, rfl, -, others⟩ := Performs.of_removeIfThere (k := oldest + 1) removes stem before
    obtain ⟨second, rfl, shifted⟩ := Performs.of_moves (r := { r with files := first }) moves stem place
    obtain ⟨files, rfl, moved⟩ :=
      Performs.of_moveIfThere (j := 0) (k := 1) (r := { r with files := second }) last stem (by omega) place
    refine ⟨files, by rw [← archives], fun leads => ?_⟩
    obtain ⟨reached, moved⟩ := moved leads
    obtain ⟨-, still, shifted⟩ := shifted reached
    refine ⟨moved.gone, fun k bound content has => ?_⟩
    have has : Has { r with files := first } place k content := (others k (by omega)).trans has
    cases k with
    | zero => exact moved.file content ((still 0 (.inl rfl)).trans has)
    | succ k => exact (moved.others (k + 2) (by omega) (by omega)).trans (shifted k (by omega) content has)

end Shift

section Steps

/-- A log that was opened is in use: with the file that was there, or an empty one. -/
theorem Performs.of_reopen (h : Performs reopen r () s) (stem : ∃ name, r.stem = fileStem name) :
    ∃ place live, r.files.Leads r.directory place ∧ r.SameLog s ∧ s.Live place live ∧
      (r.files.entry? (r.slot place 0) = none → live = []) ∧
      ∀ k, k ≠ 0 → s.files.entry? (r.slot place k) = r.files.entry? (r.slot place k) := by
  have h := h.of_get
  obtain ⟨⟨⟩, m, opens, h⟩ := h.exists_bind
  obtain ⟨files, opened, rfl⟩ := opens.of_changeFiles
  obtain ⟨content, m, measures, h⟩ := h.exists_bind
  obtain ⟨found, rfl⟩ := measures.of_ask
  cases h
  have named := isName stem 0
  obtain ⟨place, live, leads, free, fresh, differs⟩ := Files.of_openFile named opened
  have leads' : files.Leads r.directory place := leads.congr (differs.directories free)
  have file : files.entry? (r.slot place 0) = some (.file live) := (differs _).trans (if_pos rfl)
  obtain rfl : content = live := Except.ok.inj (found.symm.trans (leads'.read_join named file))
  refine ⟨place, content, leads, ⟨rfl, rfl, rfl, rfl⟩, ⟨leads', stem, file, rfl, rfl⟩, fresh, fun k other => ?_⟩
  exact (differs _).trans (if_neg (slot_inj.not.mpr other))

/-- After a roll the file in use is empty. What was in it is in the first archive, if any is kept. -/
theorem Performs.of_roll (h : Performs roll r () s) (before : r.Live place live) :
    r.SameLog s ∧ s.Live place [] ∧ r.Shifts place s := by
  obtain ⟨⟨⟩, m, closes, h⟩ := h.exists_bind
  cases closes
  obtain ⟨⟨⟩, m, shifts, opens⟩ := h.exists_bind
  obtain ⟨files, rfl, shifted⟩ := shifts.of_shift before.stem before.leads
  obtain ⟨place', live', leads, same, next, fresh, others⟩ := opens.of_reopen before.stem
  obtain rfl : place' = place := leads.unique before.leads
  obtain ⟨gone, shifted⟩ := shifted leads
  obtain rfl := fresh gone
  refine ⟨⟨same.directory, same.stem, same.archives, same.limit⟩, next, fun k kept content has => ?_⟩
  rw [Has, same.slot, others (k + 1) (Nat.succ_ne_zero k)]
  exact shifted k kept content has

/-- A write, seen from its end: the bytes are in the file in use, which was rolled before if they did not fit. -/
theorem Performs.of_write {n : Nat} (h : Performs (write bytes) r n s) (before : r.Live place live) :
    r.SameLog s ∧ if r.isFull bytes then s.Live place bytes ∧ r.Shifts place s
    else s.Live place (live ++ bytes) ∧
      ∀ k, k ≠ 0 → s.files.entry? (r.slot place k) = r.files.entry? (r.slot place k) := by
  rw [write_eq] at h
  have h := h.of_get
  split at h
  · rename_i full
    obtain ⟨⟨⟩, m, rolls, stores⟩ := h.exists_bind
    obtain ⟨same, next, shifted⟩ := rolls.of_roll before
    obtain ⟨files, appended, next', differs⟩ := next.append_eq bytes
    obtain ⟨-, rfl⟩ := Prod.mk.inj ((performs_store appended).symm.trans stores)
    rw [if_pos full]
    refine ⟨same.trans ⟨rfl, rfl, rfl, rfl⟩, next', fun k kept content has => ?_⟩
    exact ((differs _).trans (if_neg (slot_inj.not.mpr (Nat.succ_ne_zero k)))).trans (shifted k kept content has)
  · rename_i fits
    obtain ⟨files, appended, next, differs⟩ := before.append_eq bytes
    obtain ⟨-, rfl⟩ := Prod.mk.inj ((performs_store appended).symm.trans h)
    rw [if_neg fits]
    exact ⟨⟨rfl, rfl, rfl, rfl⟩, next, fun k other => (differs _).trans (if_neg (slot_inj.not.mpr other))⟩

/-- A log that was opened has a file in use that is not too large, whatever was there. -/
theorem Performs.of_start (h : Performs start r () s) (stem : ∃ name, r.stem = fileStem name) :
    ∃ place live, r.SameLog s ∧ s.Live place live ∧ live.length ≤ r.limit := by
  have h := h.of_get
  obtain ⟨⟨⟩, m, creates, h⟩ := h.exists_bind
  obtain ⟨files, -, rfl⟩ := creates.of_changeFiles
  obtain ⟨⟨⟩, m, opens, h⟩ := h.exists_bind
  obtain ⟨place, live, -, same, inUse, -⟩ := opens.of_reopen stem
  have same : r.SameLog m := ⟨same.directory, same.stem, same.archives, same.limit⟩
  have h := h.of_get
  split at h
  · obtain ⟨same', next, -⟩ := h.of_roll inUse
    exact ⟨place, [], same.trans same', next, Nat.zero_le _⟩
  · rename_i fits
    cases h
    rw [same.limit, inUse.written] at fits
    exact ⟨place, live, same, inUse, Nat.le_of_not_lt fits⟩

end Steps

/-- A log whose file in use and whose first archives are not too large, except where a single buffer is. -/
structure Within (found : Rotation) (buffers : List (List UInt8)) (produced : Nat) (place : List String) (live : List UInt8)
    (r : Rotation) : Prop where
  same : found.SameLog r
  inUse : r.Live place live
  fits : found.limit < live.length → buffers.getLast? = some live
  archives : ∀ k < produced, k < found.archives → ∃ archive, r.Has place (k + 1) archive ∧ archive ≠ [] ∧
    (found.limit < archive.length → archive ∈ buffers)

section Run
variable {found : Rotation} {buffers : List (List UInt8)} {produced rolls : Nat}

/-- One more buffer: what was in use becomes an archive if the buffer does not fit beside it. -/
theorem Within.write (h : Within found buffers produced place live r) (writes : Performs (write bytes) r bytes.length s) :
    ∃ live', Within found (buffers ++ [bytes]) (produced + if r.isFull bytes then 1 else 0) place live' s := by
  obtain ⟨same, written⟩ := writes.of_write h.inUse
  have earlier {archive : List UInt8} (member : archive ∈ buffers) : archive ∈ buffers ++ [bytes] :=
    List.mem_append_left _ member
  cases full : r.isFull bytes with
  | true =>
    rw [full, if_pos rfl] at written
    obtain ⟨inUse, shifted⟩ := written
    obtain ⟨some, -⟩ := isFull_iff.mp full
    have shifted {k : Nat} (kept : k < found.archives) := shifted k (h.same.archives ▸ kept)
    refine ⟨bytes, h.same.trans same, inUse, fun _ => List.getLast?_concat, fun k young kept => ?_⟩
    cases k with
    | zero =>
      refine ⟨live, shifted kept live h.inUse.file, fun empty => ?_, fun large => ?_⟩
      · rw [h.inUse.written, empty] at some
        exact Nat.lt_irrefl 0 some
      · exact earlier (List.mem_of_getLast? (h.fits large))
    | succ k =>
      obtain ⟨archive, has, nonempty, bounded⟩ := h.archives k (Nat.lt_of_succ_lt_succ young) (Nat.lt_of_succ_lt kept)
      exact ⟨archive, shifted kept archive has, nonempty, fun large => earlier (bounded large)⟩
  | false =>
    rw [full, if_neg Bool.false_ne_true] at written
    obtain ⟨inUse, still⟩ := written
    refine ⟨live ++ bytes, h.same.trans same, inUse, fun large => ?_, fun k young kept => ?_⟩
    · -- the bytes do not fit, but the file in use was empty
      have empty : live = [] := by
        have fits := isFull_iff.not.mp (Bool.eq_false_iff.mp full)
        rw [h.inUse.written, h.same.limit, ← List.length_append] at fits
        exact List.eq_nil_of_length_eq_zero (Nat.eq_zero_of_not_pos fun some => fits ⟨some, large⟩)
      rw [empty, List.nil_append, List.getLast?_concat]
    · obtain ⟨archive, has, nonempty, bounded⟩ := h.archives k young kept
      refine ⟨archive, ?_, nonempty, fun large => earlier (bounded large)⟩
      rw [Has, same.slot, still (k + 1) (Nat.succ_ne_zero k)]
      exact has

/-- Along a run the files stay within the limit. -/
theorem Run.within (run : Run found buffers rolls r) (stem : ∃ name, found.stem = fileStem name) :
    ∃ produced place live, rolls = produced + (if found.limit < (found.content 0).length then 1 else 0) ∧
      Within found buffers produced place live r := by
  induction run with
  | opened opens =>
    obtain ⟨place, live, same, inUse, bounded⟩ := opens.of_start stem
    exact ⟨0, place, live, (Nat.zero_add _).symm, same, inUse, fun large => absurd large (Nat.not_lt_of_le bounded), nofun⟩
  | wrote before writes ih =>
    obtain ⟨produced, place, live, count, within⟩ := ih
    obtain ⟨live', within⟩ := within.write writes
    exact ⟨_, place, live', by rw [count]; omega, within⟩

end Run

theorem Live.read (h : r.Live place live) : r.files.read r.currentPath = .ok live :=
  h.leads.read_join (isName h.stem 0) h.file

/-- What fits beside what is in use is taken, and the archives stay as they are. -/
theorem Live.performs_write (h : r.Live place live) (fit : live.length + bytes.length ≤ r.limit) :
    ∃ s, Performs (write bytes) r bytes.length s ∧ r.isFull bytes = false ∧ s.Live place (live ++ bytes) ∧
      ∀ k, s.files.read (s.archivePath (k + 1)) = r.files.read (r.archivePath (k + 1)) := by
  have fits : r.isFull bytes = false := by
    rw [Bool.eq_false_iff, Ne, isFull_iff, h.written]
    exact fun full => Nat.not_lt_of_le fit full.2
  obtain ⟨files, appended, next, differs⟩ := h.append_eq bytes
  refine ⟨_, ?_, fits, next, fun k => ?_⟩
  · rw [write_eq]
    refine (performs_get r).bind ?_
    rw [if_neg (Bool.eq_false_iff.mp fits)]
    exact performs_store appended
  · have still := (differs (r.slot place (k + 1))).trans (if_neg (slot_inj.not.mpr (Nat.succ_ne_zero k)))
    exact h.leads.read_congr (isName h.stem (k + 1)) next.leads still

/-- Rotated files stay within the limit. In a directory of any content, whatever its archives are and whatever the file system
refuses, a log that was opened and has taken some buffers has the count of the file in use. That file is not larger than the
limit, unless it is the latest buffer and nothing else. Every archive that comes from a roll in a write is non-empty, and not
larger than the limit unless it is one of the buffers. A buffer that fits beside what is in use is taken without a roll. Such
a log comes about where nothing but files has the names of the log's files and nothing is refused. -/
theorem files_within_limit (files : Files) (directory name : String) (archives limit : Nat)
    (refuses : Request → Option FileProblem) (buffers : List (List UInt8)) :
    let found := { unopened directory name archives limit files with refuses }
    (∀ rolls r, Run found buffers rolls r → ∃ live, r.files.read r.currentPath = .ok live ∧ r.written = live.length ∧
      (limit < live.length → buffers.getLast? = some live) ∧
      (∀ k, 0 < k → k ≤ archives → k + (if limit < (found.content 0).length then 1 else 0) ≤ rolls →
        ∃ archive, r.files.read (r.archivePath k) = .ok archive ∧ archive ≠ [] ∧
          (limit < archive.length → archive ∈ buffers)) ∧
      ∀ bytes, live.length + bytes.length ≤ limit →
        ∃ s, Performs (write bytes) r bytes.length s ∧ Run found (buffers ++ [bytes]) rolls s ∧
          s.files.read s.currentPath = .ok (live ++ bytes) ∧
          ∀ k, 0 < k → s.files.read (s.archivePath k) = r.files.read (r.archivePath k)) ∧
    ∀ place, files.Leads directory place →
      (∀ k ≤ archives, files.entry? (place ++ [fileName (fileStem name) k]) ≠ some .directory) →
      (∀ q, refuses q = none) → ∃ rolls r, Run found buffers rolls r := by
  intro found
  refine ⟨fun rolls r run => ?_, fun place leads regular willing => ?_⟩
  · obtain ⟨produced, place, live, count, within⟩ := run.within ⟨name, rfl⟩
    have inUse := within.inUse
    have count : rolls = produced + if limit < (found.content 0).length then 1 else 0 := count
    refine ⟨live, inUse.read, inUse.written, within.fits, fun k young kept old => ?_, fun bytes fit => ?_⟩
    · obtain ⟨k, rfl⟩ := Nat.exists_eq_succ_of_ne_zero young.ne'
      obtain ⟨archive, has, bounds⟩ := within.archives k (by omega) kept
      exact ⟨archive, inUse.leads.read_join (isName inUse.stem (k + 1)) has, bounds⟩
    · have fit : live.length + bytes.length ≤ r.limit := within.same.limit ▸ fit
      obtain ⟨s, writes, fits, next, still⟩ := inUse.performs_write fit
      have longer := run.wrote writes
      rw [fits, if_neg Bool.false_ne_true, Nat.add_zero] at longer
      refine ⟨s, writes, longer, next.read, fun k young => ?_⟩
      obtain ⟨k, rfl⟩ := Nat.exists_eq_succ_of_ne_zero young.ne'
      exact still k
  · obtain ⟨held, holds⟩ := exists_holds (r := found) leads ⟨name, rfl⟩ regular
    obtain ⟨rolls, r, _, _, run, -⟩ := holds.exists_run willing buffers
    exact ⟨rolls, r, run⟩

theorem files_within_limit_gap :
    ∃ rolls r live, Run (unopened "logs" "app" 2 4 gap) [[6], [7, 8], [9, 9, 9, 9, 9]] rolls r ∧
      r.files.read r.currentPath = .ok live ∧ r.written = live.length ∧ (4 < live.length → live = [9, 9, 9, 9, 9]) := by
  obtain ⟨bounded, opens⟩ := files_within_limit gap "logs" "app" 2 4 (fun _ => none) [[6], [7, 8], [9, 9, 9, 9, 9]]
  obtain ⟨rolls, r, run⟩ := opens ["logs"] leads_gap regular_gap fun _ => rfl
  obtain ⟨live, read, written, single, -⟩ := bounded rolls r run
  exact ⟨rolls, r, live, run, read, written, fun large => (Option.some.inj (single large)).symm⟩

end ProxyMonitor.Log.Rotation
