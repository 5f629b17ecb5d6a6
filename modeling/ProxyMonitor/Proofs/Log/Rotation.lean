import ProxyMonitor.Proofs.Log.Slots

/-! What a rotation keeps: the files of a log, oldest first, are the end of what was there and what has been written since.
A roll loses the oldest file as a whole, and nothing that was written at once is ever in two files. -/
namespace ProxyMonitor.Log.Rotation
variable {r s u : Rotation} {place : List String} {held : Nat → Option (List UInt8)} {live bytes : List UInt8}

/-- Whether the bytes do not fit into the file in use any more. An empty file takes them all. -/
def isFull (r : Rotation) (bytes : List UInt8) : Bool :=
  0 < r.written && r.limit < r.written + bytes.length

theorem isFull_iff : r.isFull bytes = true ↔ 0 < r.written ∧ r.limit < r.written + bytes.length := by
  simp [isFull]

/-- The bytes of a file of the log, none if it is not there. -/
def content (r : Rotation) (k : Nat) : List UInt8 :=
  (r.files.read (r.path k)).toOption.getD []

/-- The files from the oldest archive to the one in use. -/
def contents (r : Rotation) : List (List UInt8) :=
  (List.range (r.archives + 1)).reverse.map r.content

/-- The oldest file is gone and the latest one is empty. -/
def MovesOn (before after : List (List UInt8)) : Prop :=
  ∃ oldest rest, before = oldest :: rest ∧ after = rest ++ [[]]

/-- The latest file has grown by the bytes. -/
def Extends (bytes : List UInt8) (before after : List (List UInt8)) : Prop :=
  ∃ front live, before = front ++ [live] ∧ after = front ++ [live ++ bytes]

section Contents

theorem Holds.content_eq (h : r.Holds place held) {k : Nat} (kept : k ≤ r.archives) : r.content k = (held k).getD [] := by
  have slot := h.slots k kept
  unfold content path
  cases there : held k with
  | none =>
    rw [there] at slot
    rw [h.leads.read_join_none (h.isName k) slot]
    rfl
  | some content =>
    rw [there] at slot
    rw [h.leads.read_join (h.isName k) slot]
    rfl

theorem Holds.contents_eq (h : r.Holds place held) :
    r.contents = (List.range (r.archives + 1)).reverse.map fun k => (held k).getD [] := by
  refine List.map_congr_left fun k member => h.content_eq ?_
  have bound := List.mem_range.mp (List.mem_reverse.mp member)
  omega

theorem Holds.contents_eq_cons (h : r.Holds place held) :
    r.contents = (held r.archives).getD [] :: (List.range r.archives).reverse.map fun k => (held k).getD [] := by
  rw [h.contents_eq, List.range_succ]
  simp

theorem Holds.contents_eq_concat (h : r.Holds place held) :
    r.contents = ((List.range r.archives).reverse.map fun k => (held (k + 1)).getD []) ++ [(held 0).getD []] := by
  rw [h.contents_eq, List.range_succ_eq_map]
  simp

/-- A log whose latest file is another one has the same archives. -/
theorem Holds.contents_update (h : r.Holds place held) {content : List UInt8} (same : s.archives = r.archives)
    (h' : s.Holds place (Function.update held 0 (some content))) :
    ∃ front, r.contents = front ++ [(held 0).getD []] ∧ s.contents = front ++ [content] := by
  refine ⟨_, h.contents_eq_concat, ?_⟩
  rw [h'.contents_eq_concat, same]
  simp

theorem Holds.movesOn (h : r.Holds place held) (same : s.archives = r.archives)
    (h' : s.Holds place (Function.update (aged held) 0 (some []))) : MovesOn r.contents s.contents := by
  refine ⟨_, _, h.contents_eq_cons, ?_⟩
  rw [h'.contents_eq_concat, same]
  simp [aged]

end Contents

/-- The file system refuses nothing. -/
def Willing (r : Rotation) : Prop :=
  ∀ q, r.refuses q = none

theorem Willing.refusal (h : r.Willing) (requests : List Request) : r.refusal requests = none :=
  List.findSome?_eq_none_iff.mpr fun q _ => h q

theorem Keeps.willing (h : r.Keeps s place) (willing : r.Willing) : s.Willing := fun q => by
  rw [h.refuses, willing q]

theorem Holds.performs_reopen (h : r.Holds place held) (willing : r.Willing) :
    ∃ s, Performs reopen r () s ∧ r.Keeps s place ∧
      s.InUse place (Function.update held 0 (some ((held 0).getD []))) ((held 0).getD []) := by
  have opened := h.leaves_reopen
  rw [willing.refusal] at opened
  exact opened.performs

theorem Holds.performs_roll (h : r.Holds place held) (willing : r.Willing) :
    ∃ s, Performs roll r () s ∧ r.Keeps s place ∧ s.InUse place (Function.update (aged held) 0 (some [])) [] := by
  have rolled := h.leaves_roll
  rw [willing.refusal] at rolled
  exact rolled.performs

/-- A log that is open takes bytes into the file in use, and touches no other. -/
theorem Live.append_eq (h : r.Live place live) (bytes : List UInt8) :
    ∃ files, append bytes r = .ok { r with files, written := r.written + bytes.length } ∧
      { r with files, written := r.written + bytes.length }.Live place (live ++ bytes) ∧
      r.files.Differs files (r.slot place 0) (some (.file (live ++ bytes))) := by
  have named := isName h.stem 0
  have found : r.files.read r.currentPath = .ok live := h.leads.read_join named h.file
  have free : r.files.entry? (r.slot place 0) ≠ some .directory := by simp [h.file]
  obtain ⟨files, written, differs⟩ := h.leads.write_join named free (live ++ bytes)
  have written : r.files.write r.currentPath (live ++ bytes) = .ok files := written
  refine ⟨files, ?_, ⟨h.leads.congr (differs.directories free), h.stem, (differs _).trans (if_pos rfl), h.handle, ?_⟩, differs⟩
  · rw [append, h.handle]
    simp only [found, written, bind, Except.bind]
    rfl
  · rw [h.written, List.length_append]

theorem InUse.append_eq (h : r.InUse place held live) (bytes : List UInt8) :
    ∃ s, append bytes r = .ok s ∧ r.Keeps s place ∧
      s.InUse place (Function.update held 0 (some (live ++ bytes))) (live ++ bytes) := by
  obtain ⟨files, appended, next, differs⟩ := h.toLive.append_eq bytes
  obtain ⟨keeps, holds, _, _⟩ := h.holds.turn_at (Nat.zero_le _) (some (live ++ bytes)) differs
  exact ⟨_, appended, ⟨rfl, rfl, rfl, rfl, rfl, keeps.others⟩, ⟨holds.leads, holds.stem, holds.slots⟩,
    Function.update_self .., next.handle, next.written⟩

/-- The part of a write after the roll. -/
def store (bytes : List UInt8) : Task Nat := do
  match append bytes (← get) with
  | .ok r => set r; return bytes.length
  | .error problem => throw problem

theorem write_eq (bytes : List UInt8) :
    write bytes = (do
      let r ← get
      if r.isFull bytes then
        roll
        store bytes
      else store bytes) := rfl

theorem performs_store (stored : append bytes r = .ok s) : Performs (store bytes) r bytes.length s := by
  refine (performs_get r).bind ?_
  rw [stored]
  exact (performs_set r s).bind (performs_pure _ s)

/-- A log that is open takes all bytes: into the latest file, or into a new one if that is full. -/
theorem InUse.performs_write (h : r.InUse place held live) (willing : r.Willing) (bytes : List UInt8) :
    ∃ s held' live' mid, Performs (write bytes) r bytes.length s ∧ r.Keeps s place ∧ s.InUse place held' live' ∧
      (if r.isFull bytes then MovesOn r.contents mid else mid = r.contents) ∧ Extends bytes mid s.contents := by
  rw [write_eq]
  cases full : r.isFull bytes with
  | true =>
    obtain ⟨mid, rolled, keeps, inUse⟩ := h.holds.performs_roll willing
    obtain ⟨s, stored, keeps', inUse'⟩ := inUse.append_eq bytes
    obtain ⟨front, before, after⟩ := inUse.holds.contents_update keeps'.archives inUse'.holds
    refine ⟨s, _, _, mid.contents, (performs_get r).bind ?_, keeps.trans keeps', inUse', ?_, front, _, before, after⟩
    · rw [if_pos full]
      exact rolled.bind (performs_store stored)
    · exact h.holds.movesOn keeps.archives inUse.holds
  | false =>
    obtain ⟨s, stored, keeps, inUse⟩ := h.append_eq bytes
    obtain ⟨front, before, after⟩ := h.holds.contents_update keeps.archives inUse.holds
    rw [h.live] at before
    refine ⟨s, _, _, r.contents, (performs_get r).bind ?_, keeps, inUse, rfl, front, _, before, after⟩
    rw [if_neg (Bool.eq_false_iff.mp full)]
    exact performs_store stored

/-- A log opens in any directory. Its files are those that were there, unless the latest one has outgrown its limit. -/
theorem Holds.performs_start (h : r.Holds place held) (willing : r.Willing) :
    ∃ s held' live', Performs start r () s ∧ r.Keeps s place ∧ s.InUse place held' live' ∧
      if r.limit < (r.content 0).length then MovesOn r.contents s.contents else s.contents = r.contents := by
  have created : r.files.createDirectories r.directory = .ok r.files := h.leads.createDirectories
  obtain ⟨mid, opened, keeps, inUse⟩ := h.performs_reopen willing
  have content := h.content_eq (Nat.zero_le _)
  obtain ⟨front, before, after⟩ := h.contents_update keeps.archives inUse.holds
  have same : mid.contents = r.contents := after.trans before.symm
  have limit : mid.limit < mid.written ↔ r.limit < (r.content 0).length := by
    rw [keeps.limit, inUse.written, content]
  have create := performs_changeFiles (·.createDirectories r.directory) (willing (.create r.directory)) created
  by_cases grown : r.limit < (r.content 0).length
  · obtain ⟨s, rolled, keeps', inUse'⟩ := inUse.holds.performs_roll (keeps.willing willing)
    refine ⟨s, _, _, ?_, keeps.trans keeps', inUse', ?_⟩
    · refine (performs_get r).bind (create.bind (opened.bind ((performs_get mid).bind ?_)))
      rw [if_pos (limit.mpr grown)]
      exact rolled
    · rw [if_pos grown, ← same]
      exact inUse.holds.movesOn keeps'.archives inUse'.holds
  · refine ⟨mid, _, _, ?_, keeps, inUse, ?_⟩
    · refine (performs_get r).bind (create.bind (opened.bind ((performs_get mid).bind ?_)))
      rw [if_neg (limit.not.mpr grown)]
      exact performs_pure () mid
    · rw [if_neg grown, same]

section Parts

/-- Pieces in the order in which they came, in groups: those of the files that are lost, then those of the files that are
kept. A file is what its pieces make one after the other. -/
structure Parts (pieces : List (List UInt8)) (lost kept : List (List (List UInt8))) (files : List (List UInt8)) : Prop where
  pieces : (lost ++ kept).flatten = pieces
  files : kept.map List.flatten = files

variable {pieces before after : List (List UInt8)} {lost kept : List (List (List UInt8))}

theorem Parts.ofFiles (files : List (List UInt8)) : Parts files [] (files.map fun file => [file]) files := by
  constructor
  · rw [List.nil_append, ← List.flatMap_def, List.flatMap_singleton']
  · rw [List.map_map, List.map_congr_left (g := id) fun file _ => by simp, List.map_id]

/-- Bytes that are written at once are one piece of the latest file. -/
theorem Parts.extend (h : Parts pieces lost kept before) (grown : Extends bytes before after) :
    ∃ kept', Parts (pieces ++ [bytes]) lost kept' after := by
  obtain ⟨front, live, rfl, rfl⟩ := grown
  obtain ⟨keptFront, keptLive, rfl, hfront, hlive⟩ := List.map_eq_append_iff.mp h.files
  obtain ⟨latest, rfl, rfl⟩ := List.map_eq_singleton_iff.mp hlive
  refine ⟨keptFront ++ [latest ++ [bytes]], ?_, by simp [hfront]⟩
  rw [← h.pieces]
  simp

/-- The oldest file is lost with all its pieces. -/
theorem Parts.moveOn (h : Parts pieces lost kept before) (moved : MovesOn before after) :
    ∃ file kept', Parts pieces (lost ++ [file]) kept' after ∧ before.head? = some file.flatten := by
  obtain ⟨oldest, rest, rfl, rfl⟩ := moved
  obtain ⟨file, others, rfl, rfl, hothers⟩ := List.map_eq_cons_iff.mp h.files
  refine ⟨file, others ++ [[]], ⟨?_, by simp [hothers]⟩, rfl⟩
  rw [← h.pieces]
  simp

/-- What is kept is the end of everything. -/
theorem Parts.suffix {files : List (List UInt8)} (h : Parts pieces lost kept files) : files.flatten <:+ pieces.flatten := by
  refine ⟨lost.flatten.flatten, ?_⟩
  have kept : kept.flatten.flatten = (kept.map List.flatten).flatten := List.flatten_flatten
  rw [← h.pieces, ← h.files, List.flatten_append, List.flatten_append, kept]

end Parts

/-- A log before it is opened, in a directory of any content. -/
def unopened (directory name : String) (archives limit : Nat) (files : Files) : Rotation :=
  { directory, stem := fileStem name, archives, limit, files }

/-- The log was opened and the buffers were written to it, each with success. Every roll is counted. -/
inductive Run (found : Rotation) : (buffers : List (List UInt8)) → (rolls : Nat) → Rotation → Prop
  | opened {r : Rotation} (opens : Performs start found () r) :
    Run found [] (if found.limit < (found.content 0).length then 1 else 0) r
  | wrote {buffers : List (List UInt8)} {rolls : Nat} {r s : Rotation} {bytes : List UInt8} (before : Run found buffers rolls r)
    (writes : Performs (write bytes) r bytes.length s) :
    Run found (buffers ++ [bytes]) (rolls + if r.isFull bytes then 1 else 0) s

/-- The content of the oldest file at some time. -/
def Former (found : Rotation) (buffers : List (List UInt8)) (file : List UInt8) : Prop :=
  ∃ earlier, (earlier = found ∨ ∃ front rolls, front <+: buffers ∧ Run found front rolls earlier) ∧
    earlier.contents.head? = some file

theorem Former.mono {found : Rotation} {buffers later : List (List UInt8)} {file : List UInt8} (h : Former found buffers file)
    (more : buffers <+: later) : Former found later file := by
  obtain ⟨earlier, rfl | ⟨front, rolls, within, run⟩, head⟩ := h
  · exact ⟨earlier, .inl rfl, head⟩
  · exact ⟨earlier, .inr ⟨front, rolls, within.trans more, run⟩, head⟩

theorem Performs.unique {α : Type} {t : Task α} {a b : α} (h : Performs t r a s) (h' : Performs t r b u) : s = u :=
  congrArg Prod.snd (h.symm.trans h')

section Run
variable {found : Rotation} {buffers : List (List UInt8)} {rolls : Nat} (h : found.Holds place held) (willing : found.Willing)
include h willing

/-- A log can be opened and takes everything. -/
theorem Holds.exists_run (buffers : List (List UInt8)) :
    ∃ rolls r held live, Run found buffers rolls r ∧ found.Keeps r place ∧ r.InUse place held live := by
  induction buffers using List.reverseRecOn with
  | nil =>
    obtain ⟨r, held, live, opens, keeps, inUse, _⟩ := h.performs_start willing
    exact ⟨_, r, held, live, .opened opens, keeps, inUse⟩
  | append_singleton buffers bytes ih =>
    obtain ⟨rolls, r, _, _, run, keeps, inUse⟩ := ih
    obtain ⟨s, held, live, _, writes, keeps', inUse', _⟩ := inUse.performs_write (keeps.willing willing) bytes
    exact ⟨_, s, held, live, run.wrote writes, keeps.trans keeps', inUse'⟩

/-- Along a run the log stays in use, and its files are the latest groups of the pieces. -/
theorem Run.parts (run : Run found buffers rolls r) :
    (∃ held live, r.InUse place held live) ∧ found.Keeps r place ∧
      ∃ lost kept, Parts (found.contents ++ buffers) lost kept r.contents ∧ lost.length = rolls ∧
        ∀ file ∈ lost, Former found buffers file.flatten := by
  induction run with
  | opened opens =>
    obtain ⟨r', held, live, opens', keeps, inUse, files⟩ := h.performs_start willing
    obtain rfl := opens.unique opens'
    have parts := Parts.ofFiles found.contents
    rw [List.append_nil]
    refine ⟨⟨held, live, inUse⟩, keeps, ?_⟩
    split at files
    · rename_i outgrown
      obtain ⟨file, kept, parts, head⟩ := parts.moveOn files
      refine ⟨[file], kept, parts, by simp [outgrown], ?_⟩
      rintro _ (_ | ⟨_, ⟨⟩⟩)
      exact ⟨found, .inl rfl, head⟩
    · rename_i fits
      rw [files]
      exact ⟨[], _, parts, by simp [fits], nofun⟩
  | @wrote buffers rolls r s bytes before writes ih =>
    obtain ⟨⟨_, _, inUse⟩, keeps, lost, kept, parts, count, former⟩ := ih
    obtain ⟨s', held, live, mid, writes', keeps', inUse', rolled, grown⟩ := inUse.performs_write (keeps.willing willing) bytes
    obtain rfl := writes.unique writes'
    have former : ∀ file ∈ lost, Former found (buffers ++ [bytes]) file.flatten :=
      fun file member => (former file member).mono (List.prefix_append _ _)
    refine ⟨⟨held, live, inUse'⟩, keeps.trans keeps', ?_⟩
    rw [← List.append_assoc]
    -- a roll moves one group from those that are kept to those that are lost, before the bytes are added
    split at rolled
    · rename_i full
      obtain ⟨file, kept, parts, head⟩ := parts.moveOn rolled
      obtain ⟨kept, parts⟩ := parts.extend grown
      refine ⟨lost ++ [file], kept, parts, by simp [count, full], fun other member => ?_⟩
      rcases List.mem_append.mp member with member | member
      · exact former other member
      · rw [List.mem_singleton.mp member]
        exact ⟨r, .inr ⟨buffers, rolls, List.prefix_append _ _, before⟩, head⟩
    · rename_i fits
      rw [rolled] at grown
      obtain ⟨kept, parts⟩ := parts.extend grown
      exact ⟨lost, kept, parts, by simp [count, fits], former⟩

end Run

/-- Rotation loses whole files only, the oldest ones, and one of them with each roll. In a directory where nothing but files
has the names of the log's files, a log can be opened with any number of archives and any limit and takes all buffers. After
each of them the files, from the oldest archive to the one in use, are the end of what they were at first and all buffers.
What was there and what was written falls into groups: the first ones are the files that were the oldest at some time, as many
as there were rolls, and the others are the files that are there. No other file changes, and no archive of a higher number. -/
theorem rotation_loses_oldest {files : Files} {directory name : String} {place : List String} {archives : Nat}
    (leads : files.Leads directory place)
    (regular : ∀ k ≤ archives, files.entry? (place ++ [fileName (fileStem name) k]) ≠ some .directory) (limit : Nat)
    (buffers : List (List UInt8)) :
    let found := unopened directory name archives limit files
    (∃ rolls r, Run found buffers rolls r) ∧
    ∀ rolls r, Run found buffers rolls r →
      r.contents.flatten <:+ found.contents.flatten ++ buffers.flatten ∧
      (∃ lost kept, Parts (found.contents ++ buffers) lost kept r.contents ∧ lost.length = rolls ∧
        ∀ file ∈ lost, Former found buffers file.flatten) ∧
      (∀ other, (∀ k ≤ archives, other ≠ place ++ [fileName (fileStem name) k]) →
        r.files.entry? other = files.entry? other) ∧
      ∀ k, archives < k → r.files.entry? (place ++ [fileName (fileStem name) k]) =
        files.entry? (place ++ [fileName (fileStem name) k]) := by
  intro found
  obtain ⟨held, holds⟩ := exists_holds (r := found) leads ⟨name, rfl⟩ regular
  have willing : found.Willing := fun _ => rfl
  refine ⟨?_, fun rolls r run => ?_⟩
  · obtain ⟨rolls, r, _, _, run, _⟩ := holds.exists_run willing buffers
    exact ⟨rolls, r, run⟩
  · obtain ⟨_, keeps, lost, kept, parts, count, former⟩ := run.parts holds willing
    refine ⟨?_, ⟨lost, kept, parts, count, former⟩, keeps.others, fun k above => keeps.others _ ?_⟩
    · rw [← List.flatten_append]
      exact parts.suffix
    · intro j (kept : j ≤ archives) same
      have number : k = j := (slot_inj (r := found)).mp same
      omega

/-- A log whose latest archive is missing, and a file that belongs to no log. -/
def gap : Files :=
  ⟨[(["logs"], .directory), (["logs", "app.log"], .file [1, 2, 3]), (["logs", "app.log.2"], .file [4]),
    (["logs", "app.log.3"], .file [5])]⟩

theorem leads_gap : gap.Leads "logs" ["logs"] :=
  ⟨by rfl, by rfl⟩

theorem fileStem_app : fileStem "app" = "app" := by decide +kernel

theorem regular_gap : ∀ k ≤ 2, gap.entry? (["logs"] ++ [fileName (fileStem "app") k]) ≠ some .directory := by
  rw [fileStem_app]
  decide

theorem rotation_loses_oldest_gap :
    gap.Leads "logs" ["logs"] ∧
    (∀ k ≤ 2, gap.entry? (["logs"] ++ [fileName (fileStem "app") k]) ≠ some .directory) ∧
    (unopened "logs" "app" 2 4 gap).contents = [[4], [], [1, 2, 3]] ∧
    ∃ rolls r, Run (unopened "logs" "app" 2 4 gap) [[6], [7, 8]] rolls r ∧ r.contents.flatten <:+ [4, 1, 2, 3, 6, 7, 8] ∧
      r.files.entry? (["logs"] ++ [fileName (fileStem "app") 3]) = some (.file [5]) := by
  have slots : ∀ k ≤ 2, gap.entry? (["logs"] ++ [fileName (fileStem "app") k]) =
      (if k = 0 then some [1, 2, 3] else if k = 2 then some [4] else none : Option (List UInt8)).map .file := by
    rw [fileStem_app]
    decide
  have holds : (unopened "logs" "app" 2 4 gap).Holds ["logs"]
      fun k => if k = 0 then some [1, 2, 3] else if k = 2 then some [4] else none :=
    ⟨leads_gap, ⟨"app", rfl⟩, slots⟩
  have contents : (unopened "logs" "app" 2 4 gap).contents = [[4], [], [1, 2, 3]] := holds.contents_eq
  have third : gap.entry? (["logs"] ++ [fileName (fileStem "app") 3]) = some (.file [5]) := by
    rw [fileStem_app]
    decide
  obtain ⟨⟨rolls, r, run⟩, kept⟩ := rotation_loses_oldest leads_gap regular_gap 4 [[6], [7, 8]]
  obtain ⟨suffix, _, _, above⟩ := kept rolls r run
  rw [contents] at suffix
  exact ⟨leads_gap, regular_gap, contents, rolls, r, run, suffix, (above 3 (by decide)).trans third⟩

end ProxyMonitor.Log.Rotation
