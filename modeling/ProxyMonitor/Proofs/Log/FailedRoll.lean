import ProxyMonitor.Proofs.Log.Rotation
import ProxyMonitor.Proofs.Text.Utf8

/-! What a roll leaves behind when the file system refuses one of its requests: all files but the oldest are kept, and the log
is closed until a write makes it roll again. -/
namespace ProxyMonitor.Log.Rotation
variable {r s u : Rotation} {place : List String} {held : Nat → Option (List UInt8)} {bytes : List UInt8}
  {problem : FileProblem}

/-- A write that makes the log roll succeeds if nothing that is asked is refused, and ends with the first problem otherwise. -/
theorem Holds.write_full (h : r.Holds place held) (full : r.isFull bytes = true) :
    match r.refusal (r.rollRequests held) with
    | none => ∃ s held', Performs (write bytes) r bytes.length s ∧ s.InUse place held' bytes
    | some problem => ∃ s, (write bytes).run.run r = (.error problem, s) ∧ r.Stopped place held s := by
  obtain ⟨s, rolled, left⟩ := h.leaves_roll
  have start : (write bytes).run.run r = ((do roll; store bytes : Task Nat)).run.run r := by
    rw [write_eq, run_get_bind, if_pos full]
  cases refused : r.refusal (r.rollRequests held) with
  | none =>
    rw [refused] at rolled left
    obtain ⟨-, inUse⟩ : r.Keeps s place ∧ s.InUse place (Function.update (aged held) 0 (some [])) [] := left
    obtain ⟨u, stored, -, inUse'⟩ := inUse.append_eq bytes
    exact ⟨u, _, start.trans (Performs.bind rolled (performs_store stored)), inUse'⟩
  | some problem =>
    rw [refused] at rolled left
    refine ⟨s, ?_, left⟩
    rw [start, ExceptT.run_bind, StateT.run_bind, rolled]
    rfl

/-- A log that is closed takes nothing that fits. -/
theorem write_closed (closed : r.handle = .closed) (fits : r.isFull bytes = false) :
    (write bytes).run.run r = (.error .notOpen, r) := by
  have nowhere : append bytes r = .error .notOpen := by
    rw [append, closed]
  have stored : (store bytes).run.run r = (.error .notOpen, r) := by
    rw [store, run_get_bind, nowhere]
    rfl
  rw [write_eq, run_get_bind, fits, if_neg Bool.false_ne_true, stored]

/-- The log where the file system refuses other requests. -/
def facing (r : Rotation) (refuses : Request → Option FileProblem) : Rotation :=
  { r with refuses }

/-- Writes one after the other, each with its answer, while what is refused may change. -/
inductive Attempts (r : Rotation) : List (List UInt8 × Except FileProblem Nat) → Rotation → Prop
  | start : Attempts r [] r
  | more {answers : List (List UInt8 × Except FileProblem Nat)} {s u : Rotation} {bytes : List UInt8}
      {answer : Except FileProblem Nat} (before : Attempts r answers s) (refuses : Request → Option FileProblem)
      (answered : (write bytes).run.run (s.facing refuses) = (answer, u)) : Attempts r (answers ++ [(bytes, answer)]) u

/-- No write that fits opens the log again. -/
theorem Attempts.refused {answers : List (List UInt8 × Except FileProblem Nat)} (h : Attempts r answers u)
    (closed : r.handle = .closed) (fit : ∀ a ∈ answers, r.isFull a.1 = false) :
    (∀ a ∈ answers, a.2 = .error .notOpen) ∧ ∃ refuses, u = r.facing refuses := by
  induction h with
  | start => exact ⟨nofun, r.refuses, rfl⟩
  | @more answers s u bytes answer before refuses answered ih =>
    rw [List.forall_mem_append] at fit
    obtain ⟨earlier, _, rfl⟩ := ih fit.1
    have still : (r.facing refuses).isFull bytes = false := fit.2 _ List.mem_cons_self
    have none : (write bytes).run.run (r.facing refuses) = (.error .notOpen, r.facing refuses) := write_closed closed still
    obtain ⟨rfl, rfl⟩ := Prod.mk.inj (none.symm.trans answered)
    refine ⟨?_, refuses, rfl⟩
    simpa [or_imp, forall_and] using earlier

namespace Stopped
variable (h : r.Stopped place held s)
include h

theorem holds : ∃ held', s.Holds place held' := by
  have files := h.files
  split at files
  · rcases files with holds | holds
    exacts [⟨_, holds⟩, ⟨_, holds⟩]
  · obtain ⟨m, -, -, holds⟩ := files
    exact ⟨_, holds⟩

/-- Every file but the oldest is behind its number or behind the next one. -/
theorem kept (before : r.Holds place held) {k : Nat} (younger : k < r.archives) :
    ∃ j, (j = k ∨ j = k + 1) ∧ s.content j = r.content k := by
  have within {j : Nat} (bound : j ≤ k + 1) : j ≤ s.archives := by
    rw [h.keeps.archives]
    omega
  rw [before.content_eq (Nat.le_of_lt younger)]
  have files := h.files
  split at files
  · refine ⟨k + 1, .inr rfl, ?_⟩
    rcases files with holds | holds
    · rw [holds.content_eq (within (Nat.le_refl _)), aged]
    · rw [holds.content_eq (within (Nat.le_refl _)), Function.update_of_ne (Nat.succ_ne_zero k), aged]
  · obtain ⟨m, -, -, holds⟩ := files
    by_cases moved : m ≤ k
    · refine ⟨k + 1, .inr rfl, ?_⟩
      rw [holds.content_eq (within (Nat.le_refl _)), agedFrom, if_neg (by omega), if_neg (by omega), Nat.add_sub_cancel]
    · refine ⟨k, .inl rfl, ?_⟩
      rw [holds.content_eq (within (Nat.le_succ k)), agedFrom, if_pos (by omega)]

/-- The file in use is where it was, unless the roll came to the point of opening a new one. -/
theorem live (before : r.Holds place held) (early : r.refusal (r.shiftRequests held) ≠ none) : s.content 0 = r.content 0 := by
  have files := h.files
  rw [if_neg early] at files
  obtain ⟨m, some, -, holds⟩ := files
  rw [holds.content_eq (Nat.zero_le _), before.content_eq (Nat.zero_le _), agedFrom, if_pos some]

end Stopped

/-- A failed rotation disables the log. Whatever state a log is in, if a write makes it roll and the file system refuses any of
the requests of that roll, the write ends with the first of these problems. Of all the contents only the oldest file's may be
lost, and if it was a removal or a move that was refused, the file in use is where it was. But then the log is closed: whatever
the file system does from then on, every write that would fit by the log's count, which is still the old one, ends with a
problem of its own and changes nothing. Only a write that does not fit makes the log roll again, and it succeeds if nothing is
refused any more. -/
theorem failed_roll_closes (h : r.Holds place held) (full : r.isFull bytes = true)
    (refused : r.refusal (r.rollRequests held) = some problem) :
    ∃ s, (write bytes).run.run r = (.error problem, s) ∧ r.Keeps s place ∧
      (∀ k < r.archives, ∃ j, (j = k ∨ j = k + 1) ∧ s.content j = r.content k) ∧
      (r.refusal (r.shiftRequests held) ≠ none → s.content 0 = r.content 0) ∧
      ∀ answers u, Attempts s answers u → (∀ a ∈ answers, r.written + a.1.length ≤ r.limit) →
        (∀ a ∈ answers, a.2 = .error .notOpen) ∧ u.files = s.files ∧
        ∀ refuses later, (∀ q, refuses q = none) → r.limit < r.written + later.length →
          ∃ v held', Performs (write later) (u.facing refuses) later.length v ∧ v.InUse place held' later := by
  have outcome := h.write_full full
  rw [refused] at outcome
  obtain ⟨s, ended, stopped⟩ := outcome
  have some : 0 < r.written := (isFull_iff.mp full).1
  have fits {later : List UInt8} (fit : r.written + later.length ≤ r.limit) : s.isFull later = false := by
    rw [isFull, stopped.written, stopped.keeps.limit]
    simp [fit]
  refine ⟨s, ended, stopped.keeps, fun k => stopped.kept h, stopped.live h, fun answers u attempts fit => ?_⟩
  obtain ⟨none, refuses, rfl⟩ := attempts.refused stopped.handle fun a member => fits (fit a member)
  refine ⟨none, rfl, fun granted later willing long => ?_⟩
  have again : (s.facing granted).isFull later = true := by
    have count : (s.facing granted).written = r.written := stopped.written
    have limit : (s.facing granted).limit = r.limit := stopped.keeps.limit
    rw [isFull, count, limit]
    simp [some, long]
  obtain ⟨held', holds⟩ := stopped.holds
  have holds : (s.facing granted).Holds place held' := ⟨holds.leads, holds.stem, holds.slots⟩
  have willing : (s.facing granted).Willing := willing
  have outcome := holds.write_full again
  rw [willing.refusal] at outcome
  exact outcome

section LongName

theorem length_fileStem {name : String} (some : name ≠ "") : (fileStem name).toList.length = name.toList.length := by
  unfold fileStem
  dsimp only
  split
  · rename_i empty
    have none := congrArg String.toList (String.isEmpty_iff.mp empty)
    rw [String.toList_map] at none
    exact absurd (String.toList_eq_nil_iff.mp (List.map_eq_nil_iff.mp none)) some
  · rw [String.toList_map, List.length_map]

/-- The name of a log whose archives have names that are too long. -/
def longName : String :=
  String.ofList (List.replicate 250 'a')

/-- The content of the only file of that log. -/
def onlyLive (k : Nat) : Option (List UInt8) :=
  if k = 0 then some [97, 97, 97, 97] else none

/-- The log is open, and its file has no room for three more bytes. -/
def outgrown : Rotation :=
  { unopened "." longName 1 6 ⟨[([fileName (fileStem longName) 0], .file [97, 97, 97, 97])]⟩ with
    handle := .inUse, written := 4, refuses := Request.nameProblem }

theorem holds_outgrown : outgrown.Holds [] onlyLive where
  leads := by
    have here : Files.names "." = [] := by rfl
    refine ⟨?_, rfl⟩
    show outgrown.files.locateFrom [] (Files.names ".") = _
    rw [here]
    rfl
  stem := ⟨longName, rfl⟩
  slots k _ := by
    have other : fileName (fileStem longName) k = fileName (fileStem longName) 0 ↔ k = 0 := fileName_inj
    by_cases live : k = 0
    · subst live
      simp [outgrown, unopened, Files.entry?, slot, onlyLive]
    · have apart : ¬ fileName (fileStem longName) k = fileName (fileStem longName) 0 := other.not.mpr live
      simp [outgrown, unopened, Files.entry?, slot, onlyLive, live, List.lookup_cons, beq_false_of_ne apart]

theorem hasLongName_archive : Files.hasLongName (outgrown.path 1) = true := by
  have named : Files.IsName (fileName (fileStem longName) 1) := isName_fileName longName 1
  have stem : (fileStem longName).toList.length = 250 := by
    have letters : longName.toList.length = 250 := (congrArg List.length String.toList_ofList).trans List.length_replicate
    rw [length_fileStem, letters]
    rintro empty
    simp [empty] at letters
  have long : 255 < (Text.Utf8.ofString (fileName (fileStem longName) 1)).length := by
    refine Nat.lt_of_lt_of_le ?_ (Text.Utf8.length_le_encode _)
    rw [fileName_toList, List.length_append, stem]
    decide
  rw [path, Files.hasLongName]
  show (Files.names (Files.join "." (fileName (fileStem longName) 1))).any _ = true
  rw [named.names_join, List.any_append]
  simp [long]

/-- The file in use cannot be moved aside. -/
theorem refusal_outgrown : outgrown.refusal (outgrown.shiftRequests onlyLive) = some .nameTooLong := by
  have first : outgrown.refuses (.move (outgrown.path 0) (outgrown.path 1)) = some .nameTooLong :=
    if_pos (List.any_eq_true.mpr ⟨_, List.mem_cons_of_mem _ List.mem_cons_self, hasLongName_archive⟩)
  have requests : outgrown.shiftRequests onlyLive = [.move (outgrown.path 0) (outgrown.path 1)] := rfl
  rw [requests, Rotation.refusal, List.findSome?_cons, first]

theorem refusal_outgrown_roll : outgrown.refusal (outgrown.rollRequests onlyLive) = some .nameTooLong := by
  rw [rollRequests, refusal_append, refusal_outgrown, Option.some_or]

theorem failed_roll_closes_longName :
    outgrown.isFull [98, 98, 98] = true ∧
    ∃ s, (write [98, 98, 98]).run.run outgrown = (.error .nameTooLong, s) ∧ s.content 0 = outgrown.content 0 ∧
      ∀ answer u, Attempts s [([99], answer)] u → answer = .error .notOpen ∧ u.files = s.files := by
  have full : outgrown.isFull [98, 98, 98] = true := by decide
  obtain ⟨s, ended, -, -, live, later⟩ := failed_roll_closes holds_outgrown full refusal_outgrown_roll
  refine ⟨full, s, ended, live (by simp [refusal_outgrown]), fun answer u attempts => ?_⟩
  have fits : outgrown.written + [(99 : UInt8)].length ≤ outgrown.limit := by decide
  obtain ⟨none, same, -⟩ := later _ u attempts fun a member => List.mem_singleton.mp member ▸ fits
  exact ⟨none _ List.mem_cons_self, same⟩

/-- The write that would fit into the file in use: all that was written before is still there, and one more byte is not
taken. -/
theorem closed_beside_live :
    ∃ s, (write [98, 98, 98]).run.run outgrown = (.error .nameTooLong, s) ∧ s.content 0 = [97, 97, 97, 97] ∧
      (s.content 0).length + [(99 : UInt8)].length ≤ s.limit ∧ (write [99]).run.run s = (.error .notOpen, s) := by
  have outcome := holds_outgrown.write_full (by decide : outgrown.isFull [98, 98, 98] = true)
  rw [refusal_outgrown_roll] at outcome
  obtain ⟨s, ended, stopped⟩ := outcome
  have live : s.content 0 = [97, 97, 97, 97] := by
    rw [stopped.live holds_outgrown (by simp [refusal_outgrown]), holds_outgrown.content_eq (Nat.zero_le _)]
    rfl
  have limit : s.limit = 6 := stopped.keeps.limit
  have written : s.written = 4 := stopped.written
  refine ⟨s, ended, live, by simp [live, limit], write_closed stopped.handle ?_⟩
  simp [isFull, limit, written]

end LongName

end ProxyMonitor.Log.Rotation
