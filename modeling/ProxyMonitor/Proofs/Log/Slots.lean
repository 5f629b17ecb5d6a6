import Mathlib.Order.Nat
import ProxyMonitor.Log.Rotation
import ProxyMonitor.Proofs.Files
import ProxyMonitor.Proofs.Text.Digits

/-! The files of a log by their age: the one in use has number zero, the archives have their own. Every step changes what
stands behind these numbers, and no other file. -/
namespace ProxyMonitor.Log

/-- The name of the file in use, or of an archive. -/
def fileName (stem : String) : Nat → String
  | 0 => s!"{stem}.log"
  | generation + 1 => s!"{stem}.log.{generation + 1}"

theorem fileName_toList (stem : String) (k : Nat) :
    (fileName stem k).toList = stem.toList ++ (".log".toList ++ if k = 0 then [] else '.' :: Text.digits k) := by
  cases k with
  | zero => simp [fileName, toString]
  | succ k =>
    have name : fileName stem (k + 1) = stem ++ ".log." ++ toString (k + 1) := rfl
    rw [name]
    simp [Text.digits]

theorem fileName_inj {stem : String} {j k : Nat} : fileName stem j = fileName stem k ↔ j = k := by
  refine ⟨fun same => ?_, fun same => by rw [same]⟩
  have same := congrArg String.toList same
  rw [fileName_toList, fileName_toList] at same
  have same := List.append_cancel_left (List.append_cancel_left same)
  split at same <;> split at same
  · omega
  · cases same
  · cases same
  · have digits := congrArg Text.natOfDigits (List.cons.inj same).2
    rwa [Text.natOfDigits_digits, Text.natOfDigits_digits] at digits

theorem slash_not_mem_fileStem (name : String) : '/' ∉ (fileStem name).toList := by
  unfold fileStem
  dsimp only
  split
  · decide
  · rw [String.toList_map]
    intro slash
    obtain ⟨c, _, kept⟩ := List.mem_map.mp slash
    split at kept
    · rename_i plain
      rw [kept] at plain
      exact absurd plain (by decide)
    · exact absurd kept (by decide)

/-- The files of a log are files of its directory, whatever name it was given. -/
theorem isName_fileName (name : String) (k : Nat) : Files.IsName (fileName (fileStem name) k) := by
  have text := fileName_toList (fileStem name) k
  have long : 4 ≤ (fileName (fileStem name) k).toList.length := by
    rw [text]
    simp
    omega
  refine ⟨?_, ?_, ?_, ?_⟩
  · rintro same
    simp [same] at long
  · rintro same
    simp [same] at long
  · rintro same
    simp [same] at long
  · rw [text, List.mem_append, List.mem_append, not_or, not_or]
    refine ⟨slash_not_mem_fileStem name, by decide, ?_⟩
    split
    · exact List.not_mem_nil
    · rw [List.mem_cons, not_or]
      refine ⟨by decide, fun slash => ?_⟩
      exact absurd (Text.isDigit_of_mem_digits slash) (by decide)

namespace Rotation
variable {α β : Type} {r s u : Rotation} {place : List String} {held : Nat → Option (List UInt8)} {content : List UInt8}

/-- The path of the file in use, or of an archive. -/
def path (r : Rotation) (k : Nat) : String :=
  Files.join r.directory (fileName r.stem k)

section Performs

/-- The steps succeed and lead from one state to another. -/
def Performs (t : Task α) (r : Rotation) (a : α) (s : Rotation) : Prop :=
  t.run.run r = (.ok a, s)

theorem Performs.bind {t : Task α} {next : α → Task β} {a : α} {b : β} (first : Performs t r a s)
    (second : Performs (next a) s b u) : Performs (t >>= next) r b u := by
  unfold Performs at *
  rw [ExceptT.run_bind, StateT.run_bind, first]
  exact second

theorem performs_get (r : Rotation) : Performs get r r r := rfl

/-- What reads the state first goes on with it. -/
theorem run_get_bind (next : Rotation → Task α) (r : Rotation) : (get >>= next).run.run r = (next r).run.run r := rfl

theorem performs_pure (a : α) (r : Rotation) : Performs (pure a) r a r := rfl

theorem performs_set (r s : Rotation) : Performs (set s) r () s := rfl

theorem performs_modify (change : Rotation → Rotation) (r : Rotation) : Performs (modify change) r () (change r) := rfl

/-- Steps that succeed one after the other succeed each. -/
theorem Performs.exists_bind {t : Task α} {next : α → Task β} {b : β} (h : Performs (t >>= next) r b u) :
    ∃ a s, Performs t r a s ∧ Performs (next a) s b u := by
  unfold Performs at *
  rw [ExceptT.run_bind, StateT.run_bind] at h
  generalize t.run.run r = first at h
  obtain ⟨outcome, s⟩ := first
  cases outcome with
  | ok a => exact ⟨a, s, rfl, h⟩
  | error problem => cases h

theorem Performs.of_get {next : Rotation → Task β} {b : β} (h : Performs (get >>= next) r b u) : Performs (next r) r b u := h

theorem Performs.of_ask {q : Request} {answer : Files → Except FileProblem α} {a : α} (h : Performs (ask q answer) r a s) :
    answer r.files = .ok a ∧ s = r := by
  rw [ask] at h
  have h := h.of_get
  cases refusal : r.refuses q with
  | some problem =>
    rw [refusal] at h
    cases h
  | none =>
    rw [refusal, Option.elim_none] at h
    cases answered : answer r.files with
    | error problem =>
      rw [answered] at h
      cases h
    | ok a =>
      rw [answered] at h
      cases h
      exact ⟨rfl, rfl⟩

theorem Performs.of_changeFiles {q : Request} {change : Files → Except FileProblem Files}
    (h : Performs (changeFiles q change) r () s) : ∃ files, change r.files = .ok files ∧ s = { r with files } := by
  rw [changeFiles] at h
  obtain ⟨files, m, asked, changed⟩ := h.exists_bind
  obtain ⟨answered, rfl⟩ := asked.of_ask
  cases changed
  exact ⟨files, answered, rfl⟩

/-- The steps succeed unless something is refused, and then they end with that problem. What is left is described for both. -/
def Leaves (t : Task Unit) (r : Rotation) (refused : Option FileProblem) (done stopped : Rotation → Prop) : Prop :=
  ∃ s, t.run.run r = (refused.elim (.ok ()) .error, s) ∧ refused.elim (done s) fun _ => stopped s

variable {refused refused' : Option FileProblem} {problem : FileProblem} {done done' stopped stopped' : Rotation → Prop}
  {t next : Task Unit}

theorem Leaves.stop (first : Leaves t r (some problem) done stopped) :
    Leaves (t >>= fun _ => next) r (some problem) done' stopped := by
  obtain ⟨s, run, left⟩ := first
  refine ⟨s, ?_, left⟩
  rw [ExceptT.run_bind, StateT.run_bind, run]
  rfl

theorem Leaves.after {a : α} {task : Task α} {next : α → Task Unit} (first : Performs task r a s)
    (second : Leaves (next a) s refused done stopped) : Leaves (task >>= next) r refused done stopped := by
  obtain ⟨u, run, left⟩ := second
  refine ⟨u, ?_, left⟩
  unfold Performs at first
  rw [ExceptT.run_bind, StateT.run_bind, first]
  exact run

theorem Leaves.bind (first : Leaves t r refused done stopped) (second : ∀ s, done s → Leaves next s refused' done' stopped) :
    Leaves (t >>= fun _ => next) r (refused.or refused') done' stopped := by
  cases refused with
  | none =>
    obtain ⟨s, performed, reached⟩ := first
    exact .after performed (second s reached)
  | some problem => exact first.stop

theorem Leaves.imp (h : Leaves t r refused done stopped) (more : ∀ s, done s → done' s)
    (more' : ∀ s, stopped s → stopped' s) : Leaves t r refused done' stopped' := by
  obtain ⟨s, run, left⟩ := h
  refine ⟨s, run, ?_⟩
  cases refused with
  | none => exact more s left
  | some problem => exact more' s left

theorem Leaves.performs (h : Leaves t r none done stopped) : ∃ s, Performs t r () s ∧ done s := h

theorem leaves_pure (there : done r) : Leaves (pure ()) r none done stopped :=
  ⟨r, rfl, there⟩

/-- A request that is refused changes nothing. -/
theorem leaves_ask {q : Request} {answer : Files → Except FileProblem α} {a : α} {next : α → Task Unit}
    (answered : answer r.files = .ok a) (still : stopped r) (later : Leaves (next a) r refused done stopped) :
    Leaves (ask q answer >>= next) r ((r.refuses q).or refused) done stopped := by
  cases refusal : r.refuses q with
  | none =>
    have granted : (r.refuses q).elim (answer r.files) .error = .ok a := by
      rw [refusal, Option.elim_none, answered]
    have asking : (ask q answer).run.run r = (.ok a, r) := by
      rw [ask, run_get_bind, granted]
      rfl
    exact .after asking later
  | some problem =>
    have denied : (r.refuses q).elim (answer r.files) .error = .error problem := by
      rw [refusal, Option.elim_some]
    have asking : (ask q answer).run.run r = (.error problem, r) := by
      rw [ask, run_get_bind, denied]
      rfl
    refine ⟨r, ?_, still⟩
    rw [ExceptT.run_bind, StateT.run_bind, asking]
    rfl

theorem leaves_changeFiles (q : Request) {change : Files → Except FileProblem Files} {files : Files}
    (answered : change r.files = .ok files) (still : stopped r) (changed : done { r with files }) :
    Leaves (changeFiles q change) r (r.refuses q) done stopped := by
  rw [← Option.or_none (o := r.refuses q)]
  exact leaves_ask answered still ⟨_, rfl, changed⟩

theorem performs_changeFiles {q : Request} (change : Files → Except FileProblem Files) {files : Files}
    (allowed : r.refuses q = none) (answered : change r.files = .ok files) :
    Performs (changeFiles q change) r () { r with files } := by
  obtain ⟨s, changed, same⟩ : Leaves (changeFiles q change) r (r.refuses q) (· = { r with files }) fun _ => True :=
    leaves_changeFiles q answered trivial rfl
  rw [allowed] at changed same
  obtain rfl : s = { r with files } := same
  exact changed

end Performs

/-- The place of a log's file. -/
def slot (r : Rotation) (place : List String) (k : Nat) : List String :=
  place ++ [fileName r.stem k]

theorem slot_inj {j k : Nat} : r.slot place j = r.slot place k ↔ j = k := by
  simp [slot, fileName_inj]

/-- The directory is at the place, and its files of the log have these contents, as far as they are there. -/
structure Holds (r : Rotation) (place : List String) (held : Nat → Option (List UInt8)) : Prop where
  leads : r.files.Leads r.directory place
  stem : ∃ name, r.stem = fileStem name
  slots : ∀ k ≤ r.archives, r.files.entry? (r.slot place k) = (held k).map .file

theorem exists_holds (leads : r.files.Leads r.directory place) (stem : ∃ name, r.stem = fileStem name)
    (regular : ∀ k ≤ r.archives, r.files.entry? (r.slot place k) ≠ some .directory) : ∃ held, r.Holds place held := by
  have file (k : Nat) (kept : k ≤ r.archives) : ∃ content : Option (List UInt8),
      r.files.entry? (r.slot place k) = content.map .file := by
    cases there : r.files.entry? (r.slot place k) with
    | none => exact ⟨none, rfl⟩
    | some e =>
      cases e with
      | directory => exact absurd there (regular k kept)
      | file content => exact ⟨some content, rfl⟩
  choose! held slots using file
  exact ⟨held, leads, stem, slots⟩

theorem isName (stem : ∃ name, r.stem = fileStem name) (k : Nat) : Files.IsName (fileName r.stem k) := by
  obtain ⟨name, stem⟩ := stem
  rw [stem]
  exact isName_fileName name k

theorem Holds.isName (h : r.Holds place held) (k : Nat) : Files.IsName (fileName r.stem k) :=
  Rotation.isName h.stem k

theorem Holds.free (h : r.Holds place held) {k : Nat} (kept : k ≤ r.archives) :
    r.files.entry? (r.slot place k) ≠ some .directory := by
  rw [h.slots k kept]
  cases held k <;> simp

theorem Holds.congr {held' : Nat → Option (List UInt8)} (h : r.Holds place held)
    (same : ∀ k ≤ r.archives, held k = held' k) : r.Holds place held' :=
  ⟨h.leads, h.stem, fun k kept => by rw [h.slots k kept, same k kept]⟩

/-- A log goes on with what it was opened with, and only its own files have changed. -/
structure Keeps (r s : Rotation) (place : List String) : Prop where
  directory : s.directory = r.directory
  stem : s.stem = r.stem
  archives : s.archives = r.archives
  limit : s.limit = r.limit
  refuses : s.refuses = r.refuses
  others : ∀ other, (∀ k ≤ r.archives, other ≠ r.slot place k) → s.files.entry? other = r.files.entry? other

theorem Keeps.refl (r : Rotation) (place : List String) : r.Keeps r place :=
  ⟨rfl, rfl, rfl, rfl, rfl, fun _ _ => rfl⟩

theorem Keeps.slot (h : r.Keeps s place) : s.slot place = r.slot place := by
  funext k
  rw [Rotation.slot, Rotation.slot, h.stem]

theorem Keeps.path (h : r.Keeps s place) : s.path = r.path := by
  funext k
  rw [Rotation.path, Rotation.path, h.directory, h.stem]

theorem Keeps.trans (h : r.Keeps s place) (next : s.Keeps u place) : r.Keeps u place where
  directory := next.directory.trans h.directory
  stem := next.stem.trans h.stem
  archives := next.archives.trans h.archives
  limit := next.limit.trans h.limit
  refuses := next.refuses.trans h.refuses
  others other apart := by
    rw [next.others other, h.others other apart]
    rwa [h.archives, h.slot]

/-- A log goes on, as open as before, and now its files have these contents. -/
structure Reaches (r : Rotation) (place : List String) (held : Nat → Option (List UInt8)) (s : Rotation) : Prop where
  keeps : r.Keeps s place
  holds : s.Holds place held
  handle : s.handle = r.handle
  written : s.written = r.written

theorem Holds.reaches (h : r.Holds place held) : r.Reaches place held r :=
  ⟨.refl r place, h, rfl, rfl⟩

theorem Reaches.trans {held' : Nat → Option (List UInt8)} (h : r.Reaches place held s) (next : s.Reaches place held' u) :
    r.Reaches place held' u :=
  ⟨h.keeps.trans next.keeps, next.holds, next.handle.trans h.handle, next.written.trans h.written⟩

theorem Reaches.congr {held' : Nat → Option (List UInt8)} (h : r.Reaches place held s)
    (same : ∀ k ≤ r.archives, held k = held' k) : r.Reaches place held' s :=
  ⟨h.keeps, h.holds.congr fun k kept => same k (h.keeps.archives ▸ kept), h.handle, h.written⟩

/-- Where only the log's files have changed, its directory is where it was. -/
theorem Holds.turn {files : Files} {held' : Nat → Option (List UInt8)} (h : r.Holds place held)
    (others : ∀ other, (∀ k ≤ r.archives, other ≠ r.slot place k) → files.entry? other = r.files.entry? other)
    (slots : ∀ k ≤ r.archives, files.entry? (r.slot place k) = (held' k).map .file) :
    r.Reaches place held' { r with files } := by
  refine ⟨⟨rfl, rfl, rfl, rfl, rfl, others⟩, ⟨h.leads.congr fun other directory => ?_, h.stem, slots⟩, rfl, rfl⟩
  rw [others other, directory]
  -- the way to the directory leads through none of the log's files
  rintro k kept rfl
  exact h.free kept directory

/-- A change at one number. -/
theorem Holds.turn_at {files : Files} {k : Nat} (h : r.Holds place held) (kept : k ≤ r.archives)
    (content : Option (List UInt8)) (differs : r.files.Differs files (r.slot place k) (content.map .file)) :
    r.Reaches place (Function.update held k content) { r with files } := by
  refine h.turn (fun other apart => ?_) fun j keptj => ?_
  · rw [differs, if_neg (apart k kept)]
  · by_cases same : j = k
    · rw [same, differs, if_pos rfl, Function.update_self]
    · rw [differs, if_neg (slot_inj.not.mpr same), Function.update_of_ne same, h.slots j keptj]

theorem Holds.hasPath (h : r.Holds place held) {k : Nat} (kept : k ≤ r.archives) :
    r.files.hasPath (r.path k) = (held k).isSome := by
  have found := h.leads.hasPath_join (h.isName k)
  rw [path, found]
  exact (congrArg Option.isSome (h.slots k kept)).trans Option.isSome_map

/-- What is asked about a file if it is there. -/
def asked (file : Option (List UInt8)) (q : Request) : List Request :=
  if file.isSome then [q] else []

/-- The first problem of the requests. -/
def refusal (r : Rotation) (requests : List Request) : Option FileProblem :=
  requests.findSome? r.refuses

theorem refusal_append (requests more : List Request) :
    r.refusal (requests ++ more) = (r.refusal requests).or (r.refusal more) :=
  List.findSome?_append

theorem refusal_asked_some (content : List UInt8) (q : Request) : r.refusal (asked (some content) q) = r.refuses q := by
  simp [refusal, asked]

theorem Keeps.refusal (h : r.Keeps s place) : s.refusal = r.refusal := by
  funext requests
  rw [Rotation.refusal, Rotation.refusal, h.refuses]

theorem Holds.leaves_removeIfThere (h : r.Holds place held) {k : Nat} (kept : k ≤ r.archives) :
    Leaves (removeIfThere (r.path k)) r (r.refusal (asked (held k) (.remove (r.path k))))
      (r.Reaches place (Function.update held k none)) (· = r) := by
  have there := h.hasPath kept
  have slot := h.slots k kept
  refine .after (performs_get r) ?_
  rw [there]
  cases content : held k with
  | none =>
    refine leaves_pure ?_
    rw [← content, Function.update_eq_self]
    exact h.reaches
  | some content' =>
    rw [content] at slot
    obtain ⟨files, removed, differs⟩ := h.leads.remove_join (h.isName k) slot
    rw [refusal_asked_some]
    exact leaves_changeFiles _ removed rfl (h.turn_at kept none differs)

/-- Files move to numbers where nothing is. -/
theorem Holds.leaves_moveIfThere (h : r.Holds place held) {j k : Nat} (keptj : j ≤ r.archives) (keptk : k ≤ r.archives)
    (distinct : j ≠ k) (free : held k = none) :
    Leaves (moveIfThere (r.path j) (r.path k)) r (r.refusal (asked (held j) (.move (r.path j) (r.path k))))
      (r.Reaches place (Function.update (Function.update held j none) k (held j))) (· = r) := by
  have there := h.hasPath keptj
  have slot := h.slots j keptj
  refine .after (performs_get r) ?_
  rw [there]
  cases content : held j with
  | none =>
    refine leaves_pure ?_
    rw [← content, Function.update_eq_self, content, ← free, Function.update_eq_self]
    exact h.reaches
  | some content' =>
    rw [content] at slot
    obtain ⟨without, files, moved, removed, added⟩ := h.leads.rename_join (h.isName j) (h.isName k)
      (fileName_inj.not.mpr distinct) slot (h.free keptk)
    have reaches := h.turn_at keptj none removed
    have reaches' := reaches.holds.turn_at keptk (some content') added
    rw [refusal_asked_some]
    exact leaves_changeFiles _ moved rfl ⟨reaches.keeps.trans reaches'.keeps, reaches'.holds, rfl, rfl⟩

/-- What stands behind the numbers when every file has got the next one. -/
def aged (held : Nat → Option (List UInt8)) : Nat → Option (List UInt8)
  | 0 => none
  | k + 1 => held k

/-- What stands behind the numbers when only the files from number `m` on have got the next one. -/
def agedFrom (m : Nat) (held : Nat → Option (List UInt8)) (k : Nat) : Option (List UInt8) :=
  if k < m then held k else if k = m then none else held (k - 1)

theorem agedFrom_zero : agedFrom 0 held = aged held := by
  funext k
  cases k with
  | zero => rfl
  | succ k => simp [agedFrom, aged]

/-- One more file gets the next number, which is free. -/
theorem update_agedFrom (m : Nat) :
    Function.update (Function.update (agedFrom (m + 1) held) m none) (m + 1) (agedFrom (m + 1) held m) = agedFrom m held := by
  funext k
  simp only [Function.update_apply, agedFrom]
  grind

/-- The steps of a loop. -/
def each (items : List β) (step : β → Task Unit) : Task PUnit :=
  forIn items PUnit.unit fun item _ => do
    step item
    pure (.yield PUnit.unit)

theorem each_cons (step : β → Task Unit) (item : β) (rest : List β) :
    each (item :: rest) step = step item >>= fun _ => each rest step := by
  simp [each]

/-- What is asked while the files below number `n` get the next numbers, the older ones first. -/
def moveRequests (r : Rotation) (held : Nat → Option (List UInt8)) (n : Nat) : List Request :=
  (List.range n).reverse.flatMap fun k => asked (held k) (.move (r.path k) (r.path (k + 1)))

/-- The way from one number to the next. -/
theorem Reaches.leaves_move {m : Nat} (h : r.Reaches place (agedFrom (m + 1) held) s) (kept : m + 1 ≤ r.archives) :
    Leaves (moveIfThere (r.path m) (r.path (m + 1))) s (r.refusal (asked (held m) (.move (r.path m) (r.path (m + 1)))))
      (r.Reaches place (agedFrom m held)) (r.Reaches place (agedFrom (m + 1) held)) := by
  have kept' : m + 1 ≤ s.archives := h.keeps.archives ▸ kept
  have left := h.holds.leaves_moveIfThere (Nat.le_of_succ_le kept') kept' (Nat.lt_succ_self m).ne (by simp [agedFrom])
  have here : agedFrom (m + 1) held m = held m := if_pos (Nat.lt_succ_self m)
  rw [update_agedFrom, here, h.keeps.path, h.keeps.refusal] at left
  exact left.imp (fun u reached => h.trans reached) fun u same => same ▸ h

/-- A shift that stopped has reached some number. -/
def Halfway (r : Rotation) (place : List String) (held : Nat → Option (List UInt8)) (s : Rotation) : Prop :=
  ∃ m, 0 < m ∧ m ≤ r.archives + 1 ∧ r.Reaches place (agedFrom m held) s

/-- The archives below the oldest one move up by one, the older ones first, so that nothing is in their way. -/
theorem Reaches.leaves_moves {n : Nat} (h : r.Reaches place (agedFrom (n + 1) held) s) (kept : n + 1 ≤ r.archives) :
    Leaves (each (List.range n).reverse fun generation => moveIfThere (r.path (generation + 1)) (r.path (generation + 2))) s
      (r.refusal ((List.range n).reverse.flatMap fun generation =>
        asked (held (generation + 1)) (.move (r.path (generation + 1)) (r.path (generation + 2)))))
      (r.Reaches place (agedFrom 1 held)) (r.Halfway place held) := by
  induction n generalizing s with
  | zero => exact leaves_pure h
  | succ n ih =>
    rw [List.range_succ, List.reverse_append, List.reverse_singleton, List.singleton_append, each_cons, List.flatMap_cons,
      refusal_append]
    refine ((h.leaves_move kept).imp (fun _ => id) fun u still => ?_).bind fun u reached => ih reached (by omega)
    exact ⟨n + 2, by omega, by omega, still⟩

/-- What is asked in a shift: the oldest file is removed, and the others are moved. -/
def shiftRequests (r : Rotation) (held : Nat → Option (List UInt8)) : List Request :=
  asked (held r.archives) (.remove (r.path r.archives)) ++ r.moveRequests held r.archives

/-- What is asked in a roll: after the shift, the file in use is opened again. -/
def rollRequests (r : Rotation) (held : Nat → Option (List UInt8)) : List Request :=
  r.shiftRequests held ++ [.openFile (r.path 0), .measure (r.path 0)]

theorem moveRequests_succ (n : Nat) : r.moveRequests held (n + 1) =
    ((List.range n).reverse.flatMap fun generation =>
      asked (held (generation + 1)) (.move (r.path (generation + 1)) (r.path (generation + 2)))) ++
    asked (held 0) (.move (r.path 0) (r.path 1)) := by
  simp [moveRequests, List.range_succ_eq_map, List.flatMap_append, ← List.map_reverse, List.flatMap_map]

theorem Holds.leaves_shift (h : r.Holds place held) :
    Leaves shift r (r.refusal (r.shiftRequests held)) (r.Reaches place (aged held)) (r.Halfway place held) := by
  have oldest : ∀ k ≤ r.archives, Function.update held r.archives none k = agedFrom r.archives held k := by
    intro k kept
    simp only [Function.update_apply, agedFrom]
    grind
  have untouched : r.Halfway place held r :=
    ⟨r.archives + 1, Nat.succ_pos _, Nat.le_refl _, h.reaches.congr fun k kept => (if_pos (Nat.lt_succ_of_le kept)).symm⟩
  have removed : Leaves (removeIfThere (r.path r.archives)) r
      (r.refusal (asked (held r.archives) (.remove (r.path r.archives))))
      (r.Reaches place (agedFrom r.archives held)) (r.Halfway place held) :=
    (h.leaves_removeIfThere (Nat.le_refl r.archives)).imp (fun s reached => reached.congr oldest)
      fun s still => by rwa [still]
  refine .after (performs_get r) ?_
  rw [shiftRequests, refusal_append, ← agedFrom_zero]
  cases archives : r.archives with
  | zero =>
    rw [archives] at removed
    exact (Option.or_none (o := Rotation.refusal r _)).symm ▸ removed
  | succ n =>
    rw [archives] at removed
    rw [moveRequests_succ, refusal_append]
    refine removed.bind fun s reached => (reached.leaves_moves archives.ge).bind fun s reached => ?_
    exact (reached.leaves_move (by omega)).imp (fun _ => id) fun s still => ⟨1, Nat.one_pos, by omega, still⟩

/-- A log that is open: its handle is that of the file in use, and its count is that file's. -/
structure InUse (r : Rotation) (place : List String) (held : Nat → Option (List UInt8)) (content : List UInt8) : Prop where
  holds : r.Holds place held
  live : held 0 = some content
  handle : r.handle = .inUse
  written : r.written = content.length

/-- A log that is open, whatever its archives are. -/
structure Live (r : Rotation) (place : List String) (content : List UInt8) : Prop where
  leads : r.files.Leads r.directory place
  stem : ∃ name, r.stem = fileStem name
  file : r.files.entry? (r.slot place 0) = some (.file content)
  handle : r.handle = .inUse
  written : r.written = content.length

theorem InUse.toLive (h : r.InUse place held content) : r.Live place content :=
  ⟨h.holds.leads, h.holds.stem, by rw [h.holds.slots 0 (Nat.zero_le _), h.live, Option.map_some], h.handle, h.written⟩

theorem Holds.openFile (h : r.Holds place held) : ∃ files, r.files.openFile r.currentPath = .ok files ∧
    r.Reaches place (Function.update held 0 (some ((held 0).getD []))) { r with files } := by
  have slot := h.slots 0 (Nat.zero_le _)
  cases there : held 0 with
  | some content =>
    rw [there] at slot
    have found : r.files.read r.currentPath = .ok content := h.leads.read_join (h.isName 0) slot
    refine ⟨r.files, by rw [Files.openFile, found], ?_⟩
    rw [Option.getD_some, ← there, Function.update_eq_self]
    exact h.reaches
  | none =>
    rw [there] at slot
    have absent : r.files.read r.currentPath = .error .notFound := h.leads.read_join_none (h.isName 0) slot
    obtain ⟨files, written, differs⟩ := h.leads.write_join (h.isName 0) (h.free (Nat.zero_le _)) []
    refine ⟨files, ?_, h.turn_at (Nat.zero_le _) (some []) differs⟩
    rw [Files.openFile, absent]
    exact written

/-- The log is open again, with the count of the file in use. -/
theorem Holds.leaves_reopen (h : r.Holds place held) :
    Leaves reopen r (r.refusal [.openFile (r.path 0), .measure (r.path 0)])
      (fun s => r.Keeps s place ∧
        s.InUse place (Function.update held 0 (some ((held 0).getD []))) ((held 0).getD []))
      (fun s => r.Reaches place held s ∨ r.Reaches place (Function.update held 0 (some ((held 0).getD []))) s) := by
  obtain ⟨files, opened, reaches⟩ := h.openFile
  have live : Function.update held 0 (some ((held 0).getD [])) 0 = some ((held 0).getD []) := Function.update_self ..
  have slot := reaches.holds.slots 0 (Nat.zero_le _)
  rw [live] at slot
  have found : files.read r.currentPath = .ok ((held 0).getD []) := reaches.holds.leads.read_join (reaches.holds.isName 0) slot
  have both : r.refusal [.openFile (r.path 0), .measure (r.path 0)] =
      (r.refuses (.openFile (r.path 0))).or (r.refuses (.measure (r.path 0))) := by
    rw [Rotation.refusal, List.findSome?_cons]
    cases r.refuses (.openFile (r.path 0)) <;> simp
  refine .after (performs_get r) ?_
  rw [both]
  refine (leaves_changeFiles _ opened (.inl h.reaches) rfl).bind fun s same => ?_
  rw [← Option.or_none (o := r.refuses (.measure (r.path 0)))]
  subst same
  refine leaves_ask found (.inr reaches) ⟨_, rfl, ⟨rfl, rfl, rfl, rfl, rfl, reaches.keeps.others⟩, ?_, live, rfl, rfl⟩
  exact ⟨reaches.holds.leads, reaches.holds.stem, reaches.holds.slots⟩

/-- A roll that stopped: the log is closed, and its count is still the old one. Either the files from some number on have moved,
but not the one in use, or all of them have, and there may be an empty one that is not in use. -/
structure Stopped (r : Rotation) (place : List String) (held : Nat → Option (List UInt8)) (s : Rotation) : Prop where
  keeps : r.Keeps s place
  handle : s.handle = .closed
  written : s.written = r.written
  files : if r.refusal (r.shiftRequests held) = none then
      s.Holds place (aged held) ∨ s.Holds place (Function.update (aged held) 0 (some []))
    else ∃ m, 0 < m ∧ m ≤ r.archives + 1 ∧ s.Holds place (agedFrom m held)

theorem Holds.leaves_roll (h : r.Holds place held) :
    Leaves roll r (r.refusal (r.rollRequests held))
      (fun s => r.Keeps s place ∧ s.InUse place (Function.update (aged held) 0 (some [])) []) (r.Stopped place held) := by
  have closed : { r with handle := .closed }.Holds place held := ⟨h.leads, h.stem, h.slots⟩
  have first : r.Keeps { r with handle := .closed } place := ⟨rfl, rfl, rfl, rfl, rfl, fun _ _ => rfl⟩
  have shifted : Leaves shift { r with handle := .closed } (r.refusal (r.shiftRequests held)) _ _ := closed.leaves_shift
  refine .after (performs_modify _ r) ?_
  rw [rollRequests, refusal_append]
  cases refused : r.refusal (r.shiftRequests held) with
  | some problem =>
    rw [refused] at shifted
    refine (Leaves.stop shifted).imp (fun _ => id) ?_
    rintro s ⟨m, later, within, reached⟩
    refine ⟨first.trans reached.keeps, reached.handle, reached.written, ?_⟩
    rw [if_neg (by simp [refused])]
    exact ⟨m, later, within, reached.holds⟩
  | none =>
    rw [refused] at shifted
    obtain ⟨s, performed, reached⟩ := shifted.performs
    have opened := reached.holds.leaves_reopen
    rw [reached.keeps.path, reached.keeps.refusal] at opened
    have keeps : r.Keeps s place := first.trans reached.keeps
    refine .after performed (opened.imp (fun u reopened => ⟨keeps.trans reopened.1, reopened.2⟩) ?_)
    rintro u (still | still)
    all_goals
      refine ⟨keeps.trans still.keeps, still.handle.trans reached.handle, still.written.trans reached.written, ?_⟩
      rw [if_pos refused]
    · exact .inl still.holds
    · exact .inr still.holds

end Rotation
end ProxyMonitor.Log
