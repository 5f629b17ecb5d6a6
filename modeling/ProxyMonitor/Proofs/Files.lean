import Mathlib.Data.List.Basic
import ProxyMonitor.Files

/-! Files of one directory: a path to one of its names leads there, and what is done at one place changes no other. -/
namespace ProxyMonitor.Files
variable {f g : Files} {directory name path : String} {place other : List String} {e : FileEntry}

private theorem lookup_cons (key other : List String) (e : FileEntry) (entries : List (List String × FileEntry)) :
    ((key, e) :: entries).lookup other = if other = key then some e else entries.lookup other := by
  rw [List.lookup_cons]
  by_cases h : other = key
  · simp [h]
  · rw [if_neg h, beq_false_of_ne h]

private theorem lookup_map (entries : List (List String × FileEntry)) (place other : List String) (e : FileEntry) :
    (entries.map fun (key, old) => if key = place then (key, e) else (key, old)).lookup other =
      if other = place then (entries.lookup other).map fun _ => e else entries.lookup other := by
  induction entries with
  | nil => simp
  | cons first rest ih =>
    obtain ⟨key, old⟩ := first
    have head : (if key = place then (key, e) else (key, old)) = (key, if key = place then e else old) := by
      split <;> rfl
    rw [List.map_cons]
    dsimp only
    rw [head, lookup_cons, lookup_cons, ih]
    by_cases found : other = key
    · rw [if_pos found, if_pos found, found]
      split <;> rfl
    · rw [if_neg found, if_neg found]

private theorem lookup_filter (entries : List (List String × FileEntry)) (place other : List String) :
    (entries.filter fun (key, _) => key != place).lookup other =
      if other = place then none else entries.lookup other := by
  induction entries with
  | nil => simp
  | cons first rest ih =>
    obtain ⟨key, old⟩ := first
    rw [List.filter_cons, lookup_cons]
    by_cases same : key = place
    · subst same
      rw [if_neg (by simp), ih]
      split <;> rfl
    · rw [if_pos (by simp [same]), lookup_cons, ih]
      by_cases found : other = key
      · simp [found, same]
      · simp [found]

private theorem lookup_moveTree (entries : List (List String × FileEntry)) {place target other : List String}
    (apart : ¬ target <+: other) :
    (entries.map fun (key, e) => (if place.isPrefixOf key then target ++ key.drop place.length else key, e)).lookup other =
      if place <+: other then none else entries.lookup other := by
  induction entries with
  | nil => simp
  | cons first rest ih =>
    obtain ⟨key, e⟩ := first
    rw [List.map_cons, lookup_cons, lookup_cons, ih]
    simp only [List.isPrefixOf_iff_prefix]
    by_cases moved : place <+: key
    · have elsewhere : other ≠ target ++ key.drop place.length := by
        rintro rfl
        exact apart (List.prefix_append _ _)
      rw [if_pos moved, if_neg elsewhere]
      split
      · rfl
      · rename_i outside
        rw [if_neg]
        rintro rfl
        exact outside moved
    · rw [if_neg moved]
      by_cases same : other = key
      · rw [if_pos same, if_pos same, same, if_neg moved]
      · rw [if_neg same, if_neg same]

/-- The files are others but at one place. -/
def Differs (f g : Files) (place : List String) (e : Option FileEntry) : Prop :=
  ∀ other, g.entry? other = if other = place then e else f.entry? other

theorem entry?_of_ne_nil (f : Files) (h : place ≠ []) : f.entry? place = f.entries.lookup place := by
  unfold entry?
  rw [if_neg (by simpa using h)]

theorem differs_put (f : Files) (h : place ≠ []) (e : FileEntry) : f.Differs (f.put place e) place (some e) := by
  intro other
  by_cases root : other = []
  · subst root
    rw [if_neg (Ne.symm h)]
    rfl
  · rw [entry?_of_ne_nil _ root, entry?_of_ne_nil _ root, put]
    cases there : f.entries.lookup place with
    | some old =>
      rw [Option.isSome_some, if_pos rfl, lookup_map]
      split
      · rename_i same
        rw [same, there]
        rfl
      · rfl
    | none =>
      rw [Option.isSome_none, if_neg Bool.false_ne_true, List.lookup_append, lookup_cons, List.lookup_nil]
      split
      · rename_i same
        rw [same, there]
        rfl
      · exact Option.or_none

theorem differs_filter (f : Files) (h : place ≠ []) :
    f.Differs ⟨f.entries.filter fun (other, _) => other != place⟩ place none := by
  intro other
  by_cases root : other = []
  · subst root
    rw [if_neg (Ne.symm h)]
    rfl
  · rw [entry?_of_ne_nil _ root, entry?_of_ne_nil _ root, lookup_filter]

/-- What was in a directory that moves is gone, and no other place outside the new one changes. -/
theorem entry?_moveTree (f : Files) {target : List String} (h : place ≠ []) (apart : ¬ target <+: other) :
    Files.entry? (f.moveTree place target) other = if place <+: other then none else f.entry? other := by
  by_cases root : other = []
  · subst root
    rw [if_neg (List.prefix_nil.not.mpr h)]
    rfl
  · rw [entry?_of_ne_nil _ root, entry?_of_ne_nil _ root]
    exact lookup_moveTree f.entries apart

section Names

/-- A name of an entry of a directory, not one that leads elsewhere. -/
structure IsName (name : String) : Prop where
  some : name ≠ ""
  here : name ≠ "."
  above : name ≠ ".."
  slash : '/' ∉ name.toList

theorem names_slash {path before after : String} (h : path.toList = before.toList ++ '/' :: after.toList) :
    names path = names before ++ names after := by
  rw [names, h, List.splitOn_append_cons_self, List.map_append, List.filter_append]
  rfl

theorem endsWith_slash_iff (path : String) : path.endsWith "/" = true ↔ ['/'] <:+ path.toList := by
  rw [String.endsWith_eq_endsWith_toSlice, String.Slice.endsWith_string_iff, String.copy_toSlice]
  rfl

variable (h : IsName name)
include h

theorem IsName.names : Files.names name = [name] := by
  rw [Files.names, (List.splitOn_eq_singleton h.slash : name.toList.splitOn '/' = [name.toList])]
  simp [h.some, h.here]

theorem IsName.not_startsWith : name.startsWith "/" = false := by
  refine Bool.eq_false_iff.mpr fun slash => ?_
  rw [String.startsWith_string_iff] at slash
  exact h.slash (slash.subset List.mem_cons_self)

/-- A path to a name ends in it. -/
theorem IsName.join_toList (directory : String) : ∃ front, (join directory name).toList = front ++ name.toList := by
  unfold join
  rw [h.not_startsWith, Bool.or_false]
  split
  · exact ⟨[], rfl⟩
  · split
    · exact ⟨_, String.toList_append⟩
    · exact ⟨_, String.toList_append⟩

theorem IsName.join_ne_empty (directory : String) : (join directory name).isEmpty = false := by
  obtain ⟨front, path⟩ := h.join_toList directory
  refine Bool.eq_false_iff.mpr fun empty => ?_
  rw [String.isEmpty_iff.mp empty] at path
  exact h.some (String.toList_eq_nil_iff.mp (List.append_eq_nil_iff.mp path.symm).2)

theorem IsName.not_endsWith_join (directory : String) : (join directory name).endsWith "/" = false := by
  obtain ⟨front, path⟩ := h.join_toList directory
  refine Bool.eq_false_iff.mpr fun slash => ?_
  rw [endsWith_slash_iff, path] at slash
  have last : ['/'] <:+ name.toList :=
    List.suffix_of_suffix_length_le slash (List.suffix_append _ _)
      (List.length_pos_iff.mpr fun none => h.some (String.toList_eq_nil_iff.mp none))
  exact h.slash (last.subset List.mem_cons_self)

theorem IsName.names_join (directory : String) : Files.names (join directory name) = Files.names directory ++ [name] := by
  unfold join
  rw [h.not_startsWith, Bool.or_false]
  split
  · rename_i empty
    rw [String.isEmpty_iff.mp empty, h.names]
    rfl
  · split
    · rename_i slash
      obtain ⟨front, path⟩ := (endsWith_slash_iff directory).mp slash
      have dir : directory.toList = (String.ofList front).toList ++ '/' :: "".toList := by
        rw [← path, String.toList_ofList]
        rfl
      have whole : (directory ++ name).toList = (String.ofList front).toList ++ '/' :: name.toList := by
        rw [String.toList_append, dir]
        simp
      rw [names_slash whole, names_slash dir, h.names]
      simp [Files.names]
    · have whole : (directory ++ "/" ++ name).toList = directory.toList ++ '/' :: name.toList := by
        simp
      rw [names_slash whole, h.names]

end Names

section Paths

theorem locateFrom_append (f : Files) (place : List String) (front back : List String) :
    f.locateFrom place (front ++ back) = (f.locateFrom place front).bind fun reached => f.locateFrom reached back := by
  induction front generalizing place with
  | nil => rfl
  | cons name rest ih =>
    rw [List.cons_append, locateFrom, locateFrom]
    split
    · exact ih _
    · rfl
    · rfl

/-- The path leads to a directory. -/
structure Leads (f : Files) (path : String) (place : List String) : Prop where
  located : f.locateFrom [] (names path) = .ok place
  directory : f.entry? place = some .directory

theorem directory_of_locateFrom {names : List String} {reached : List String} (h : f.locateFrom place names = .ok reached)
    (directory : f.entry? reached = some .directory) : f.entry? place = some .directory := by
  cases names with
  | nil =>
    cases h
    exact directory
  | cons name rest =>
    rw [locateFrom] at h
    split at h
    · assumption
    · cases h
    · cases h

/-- Where all directories are left, paths lead to the same places. -/
theorem locateFrom_congr (same : ∀ place, f.entry? place = some .directory → g.entry? place = some .directory)
    {names reached : List String} (h : f.locateFrom place names = .ok reached) : g.locateFrom place names = .ok reached := by
  induction names generalizing place with
  | nil => exact h
  | cons name rest ih =>
    rw [locateFrom] at h ⊢
    split at h
    · rename_i directory
      rw [same _ directory]
      exact ih h
    · cases h
    · cases h

theorem Leads.congr (h : f.Leads directory place)
    (same : ∀ place, f.entry? place = some .directory → g.entry? place = some .directory) : g.Leads directory place :=
  ⟨locateFrom_congr same h.located, same _ h.directory⟩

theorem createFrom_eq_self {names reached : List String} (h : f.locateFrom place names = .ok reached)
    (directory : f.entry? reached = some .directory) : f.createFrom place names = .ok f := by
  induction names generalizing place with
  | nil => rfl
  | cons name rest ih =>
    have here := directory_of_locateFrom h directory
    rw [locateFrom, here] at h
    rw [createFrom, directory_of_locateFrom h directory]
    exact ih h

/-- A directory that exists is left as it is. -/
theorem Leads.createDirectories (h : f.Leads directory place) : f.createDirectories directory = .ok f :=
  createFrom_eq_self h.located h.directory

end Paths

section Operations
variable (h : f.Leads directory place) (named : IsName name)
include h named

theorem Leads.locate_join : f.locate (join directory name) = .ok (place ++ [name]) := by
  rw [locate, named.join_ne_empty, if_neg Bool.false_ne_true, named.names_join, locateFrom_append, h.located]
  simp only [Except.bind, locateFrom, h.directory, if_neg named.above]

theorem Leads.find_join :
    f.find (join directory name) = Option.elim (f.entry? (place ++ [name])) (.error .notFound) .ok := by
  rw [find, h.locate_join named]
  simp only [bind, Except.bind, named.not_endsWith_join]
  cases f.entry? (place ++ [name]) with
  | none => rfl
  | some e => cases e <;> rfl

theorem Leads.hasPath_join : f.hasPath (join directory name) = Option.isSome (f.entry? (place ++ [name])) := by
  rw [hasPath, h.find_join named]
  cases f.entry? (place ++ [name]) <;> rfl

theorem Leads.read_join {content : List UInt8} (there : f.entry? (place ++ [name]) = some (.file content)) :
    f.read (join directory name) = .ok content := by
  rw [read, h.find_join named, there]
  rfl

theorem Leads.read_join_none (absent : f.entry? (place ++ [name]) = none) :
    f.read (join directory name) = .error .notFound := by
  rw [read, h.find_join named, absent]
  rfl

theorem Leads.read_congr (h' : g.Leads directory place) (same : g.entry? (place ++ [name]) = f.entry? (place ++ [name])) :
    g.read (join directory name) = f.read (join directory name) := by
  rw [read, read, h.find_join named, h'.find_join named, same]

theorem Leads.write_join (free : f.entry? (place ++ [name]) ≠ some .directory) (content : List UInt8) :
    ∃ g, f.write (join directory name) content = .ok g ∧ f.Differs g (place ++ [name]) (some (.file content)) := by
  refine ⟨_, ?_, f.differs_put (by simp) _⟩
  rw [write, h.locate_join named]
  simp only [bind, Except.bind, List.dropLast_concat, h.directory, named.not_endsWith_join]
  cases there : f.entry? (place ++ [name]) with
  | none => rfl
  | some e =>
    cases e with
    | directory => exact absurd there free
    | file content => rfl

theorem Leads.remove_join {content : List UInt8} (there : f.entry? (place ++ [name]) = some (.file content)) :
    ∃ g, f.remove (join directory name) = .ok g ∧ f.Differs g (place ++ [name]) none := by
  refine ⟨_, ?_, f.differs_filter (by simp)⟩
  rw [remove, h.locate_join named, h.find_join named, there]
  rfl

end Operations

/-- No directory is lost by a change where there is none. -/
theorem Differs.directories {e : Option FileEntry} (h : f.Differs g place e) (free : f.entry? place ≠ some .directory)
    (other : List String) (directory : f.entry? other = some .directory) : g.entry? other = some .directory := by
  have elsewhere : other ≠ place := by
    rintro rfl
    exact free directory
  rw [h other, if_neg elsewhere, directory]

/-- A file takes the place of another one in the same directory, if there is one. -/
theorem Leads.rename_join {target : String} {content : List UInt8} (h : f.Leads directory place) (named : IsName name)
    (targetNamed : IsName target) (distinct : name ≠ target) (there : f.entry? (place ++ [name]) = some (.file content))
    (free : f.entry? (place ++ [target]) ≠ some .directory) :
    ∃ without g, f.rename (join directory name) (join directory target) = .ok g ∧
      f.Differs without (place ++ [name]) none ∧ without.Differs g (place ++ [target]) (some (.file content)) := by
  obtain ⟨without, removed, differs⟩ := h.remove_join named there
  have free : without.entry? (place ++ [target]) ≠ some .directory := by
    rw [differs, if_neg (by simpa using distinct.symm)]
    exact free
  have leads : without.Leads directory place := h.congr (differs.directories (by simp [there]))
  obtain ⟨g, written, differs'⟩ := leads.write_join targetNamed free content
  refine ⟨without, g, ?_, differs, differs'⟩
  rw [rename, h.find_join named, there]
  simp only [Option.elim_some, bind, Except.bind, removed, written]

section Outcomes

theorem locateFrom_unique {names reached reached' : List String} (h : f.locateFrom place names = .ok reached)
    (h' : g.locateFrom place names = .ok reached') : reached = reached' := by
  induction names generalizing place with
  | nil => exact Except.ok.inj (h.symm.trans h')
  | cons name rest ih =>
    rw [locateFrom] at h h'
    split at h
    · split at h'
      · exact ih h h'
      · cases h'
      · cases h'
    · cases h
    · cases h

/-- A path leads to one place only, as long as it leads anywhere. -/
theorem Leads.unique (h : f.Leads directory place) (h' : g.Leads directory other) : place = other :=
  locateFrom_unique h.located h'.located

/-- What leads to a name leads to its directory first. -/
theorem IsName.leads_of_locate (named : IsName name) (located : f.locate (join directory name) = .ok other) :
    ∃ place, f.Leads directory place := by
  rw [locate, named.join_ne_empty, if_neg Bool.false_ne_true, named.names_join, locateFrom_append] at located
  cases led : f.locateFrom [] (Files.names directory) with
  | error problem =>
    rw [led] at located
    cases located
  | ok place =>
    rw [led] at located
    have located : f.locateFrom place [name] = .ok other := located
    rw [locateFrom] at located
    split at located
    · exact ⟨place, led, ‹_›⟩
    · cases located
    · cases located

theorem IsName.leads_of_hasPath (named : IsName name) (there : f.hasPath (join directory name) = true) :
    ∃ place, f.Leads directory place := by
  rw [hasPath, find] at there
  cases located : f.locate (join directory name) with
  | error problem =>
    rw [located] at there
    cases there
  | ok place => exact named.leads_of_locate located

theorem Leads.of_remove (h : f.Leads directory place) (named : IsName name) (removed : f.remove (join directory name) = .ok g) :
    f.Differs g (place ++ [name]) none := by
  rw [remove, h.locate_join named, h.find_join named] at removed
  cases there : f.entry? (place ++ [name]) with
  | none =>
    rw [there] at removed
    cases removed
  | some e =>
    rw [there] at removed
    cases e with
    | directory => cases removed
    | file content =>
      cases removed
      exact f.differs_filter (by simp)

/-- Only a file is ever replaced. -/
theorem Leads.of_write {content : List UInt8} (h : f.Leads directory place) (named : IsName name)
    (written : f.write (join directory name) content = .ok g) :
    f.entry? (place ++ [name]) ≠ some .directory ∧ f.Differs g (place ++ [name]) (some (.file content)) := by
  have free : f.entry? (place ++ [name]) ≠ some .directory := by
    intro directory
    rw [write, h.locate_join named] at written
    simp only [bind, Except.bind, List.dropLast_concat, h.directory, directory] at written
    cases written
  obtain ⟨g', written', differs⟩ := h.write_join named free content
  obtain rfl : g = g' := Except.ok.inj (written.symm.trans written')
  exact ⟨free, differs⟩

/-- A file that was opened is the one that was there, or an empty one. -/
theorem of_openFile (named : IsName name) (opened : f.openFile (join directory name) = .ok g) :
    ∃ place content, f.Leads directory place ∧ f.entry? (place ++ [name]) ≠ some .directory ∧
      (f.entry? (place ++ [name]) = none → content = []) ∧ f.Differs g (place ++ [name]) (some (.file content)) := by
  rw [openFile] at opened
  cases located : f.locate (join directory name) with
  | error problem =>
    have unread : f.read (join directory name) = .error problem := by
      rw [read, find, located]
      rfl
    rw [unread] at opened
    cases problem with
    | notFound =>
      rw [write, located] at opened
      cases opened
    | _ => cases opened
  | ok other =>
    obtain ⟨place, leads⟩ := named.leads_of_locate located
    cases there : f.entry? (place ++ [name]) with
    | none =>
      rw [leads.read_join_none named there] at opened
      obtain ⟨free, differs⟩ := leads.of_write named opened
      exact ⟨place, [], leads, free, fun _ => rfl, differs⟩
    | some e =>
      cases e with
      | directory =>
        rw [read, leads.find_join named, there] at opened
        cases opened
      | file content =>
        rw [leads.read_join named there] at opened
        cases opened
        refine ⟨place, content, leads, by simp [there], by simp [there], fun other => ?_⟩
        split
        · rename_i same
          rw [same, there]
        · rfl

theorem sibling_prefix_iff {name target : String} : place ++ [name] <+: place ++ [target] ↔ name = target := by
  rw [List.prefix_append_right_inj]
  simp

/-- After a move nothing is at the old place, what was a file is one at the new place, and all else is as it was, except in
directories at these places. -/
theorem Leads.of_rename {target : String} (h : f.Leads directory place) (named : IsName name) (targetNamed : IsName target)
    (distinct : name ≠ target) (moved : f.rename (join directory name) (join directory target) = .ok g) :
    g.entry? (place ++ [name]) = none ∧
    (∀ content, f.entry? (place ++ [name]) = some (.file content) →
      g.Leads directory place ∧ g.entry? (place ++ [target]) = some (.file content)) ∧
    ∀ other, ¬ place ++ [name] <+: other → ¬ place ++ [target] <+: other → g.entry? other = f.entry? other := by
  have apart : ¬ place ++ [target] <+: place ++ [name] := sibling_prefix_iff.not.mpr distinct.symm
  have differ : place ++ [name] ≠ place ++ [target] := fun same => apart (same ▸ List.prefix_rfl)
  rw [rename, h.find_join named] at moved
  cases there : f.entry? (place ++ [name]) with
  | none =>
    rw [there] at moved
    cases moved
  | some e =>
    rw [there] at moved
    simp only [Option.elim_some, bind, Except.bind] at moved
    cases e with
    | file content =>
      obtain ⟨without, removed, differs⟩ := h.remove_join named there
      rw [removed] at moved
      have leads : without.Leads directory place := h.congr (differs.directories (by simp [there]))
      obtain ⟨free, differs'⟩ := leads.of_write targetNamed moved
      refine ⟨?_, ?_, fun other outside outside' => ?_⟩
      · rw [differs', if_neg differ, differs, if_pos rfl]
      · rintro _ ⟨⟩
        exact ⟨leads.congr (differs'.directories free), (differs' _).trans (if_pos rfl)⟩
      · have elsewhere : other ≠ place ++ [name] := fun same => outside (same ▸ List.prefix_rfl)
        have elsewhere' : other ≠ place ++ [target] := fun same => outside' (same ▸ List.prefix_rfl)
        rw [differs', if_neg elsewhere', differs, if_neg elsewhere]
    | directory =>
      simp only [h.locate_join named, h.locate_join targetNamed] at moved
      split at moved
      · split at moved
        · cases moved
        · cases moved
          refine ⟨?_, nofun, fun other outside outside' => ?_⟩
          · rw [f.entry?_moveTree (by simp) apart, if_pos (List.prefix_refl _)]
          · rw [f.entry?_moveTree (by simp) outside', if_neg outside]
      · cases moved
      · cases moved

end Outcomes

section Saving

/-- The place and all directories above it are there. -/
def Open (f : Files) (place : List String) : Prop :=
  ∀ above, above <+: place → f.entry? above = some .directory

theorem open_root (f : Files) : f.Open [] := by
  intro above within
  rw [List.prefix_nil.mp within]
  rfl

/-- One name further on, up or down. -/
theorem Open.next (here : f.Open place) (kept : ∀ other, f.entry? other = some .directory → g.entry? other = some .directory)
    (there : g.entry? (if name = ".." then place.dropLast else place ++ [name]) = some .directory) :
    g.Open (if name = ".." then place.dropLast else place ++ [name]) := by
  intro above within
  split at within
  · exact kept _ (here above (within.trans (List.dropLast_prefix place)))
  · rename_i down
    rw [if_neg down] at there
    rcases List.prefix_concat_iff.mp within with same | within
    · rw [same, there]
    · exact kept _ (here above within)

/-- Directories that are created can be entered one after the other, and no other is lost. -/
theorem createFrom_open {names : List String} (created : f.createFrom place names = .ok g) (here : f.Open place) :
    ∃ reached, g.locateFrom place names = .ok reached ∧ g.Open reached ∧
      ∀ other, f.entry? other = some .directory → g.entry? other = some .directory := by
  induction names generalizing f place with
  | nil =>
    cases created
    exact ⟨place, rfl, here, fun _ => id⟩
  | cons name rest ih =>
    rw [createFrom] at created
    split at created
    · rename_i there
      obtain ⟨reached, located, opened, kept⟩ := ih created (here.next (fun _ => id) there)
      refine ⟨reached, ?_, opened, kept⟩
      rw [locateFrom, kept place (here place (List.prefix_refl _))]
      exact located
    · cases created
    · rename_i missing
      have nonempty : (if name = ".." then place.dropLast else place ++ [name]) ≠ [] := by
        intro root
        rw [root] at missing
        cases missing
      have differs := f.differs_put nonempty .directory
      have before := differs.directories (by simp [missing])
      have there := differs (if name = ".." then place.dropLast else place ++ [name])
      rw [if_pos rfl] at there
      obtain ⟨reached, located, opened, kept⟩ := ih created (here.next before there)
      refine ⟨reached, ?_, opened, fun other directory => kept other (before other directory)⟩
      rw [locateFrom, kept place (before place (here place (List.prefix_refl _)))]
      exact located

/-- A file may be put at this path: no other file is in the way of its directories, and no directory is there itself. -/
structure Writable (f : Files) (path : String) : Prop where
  nonempty : path ≠ ""
  name : path.endsWith "/" = false
  parents : ∃ made, f.createParents path = .ok made ∧ made.isDirectory path = false

theorem isDirectory_of_locate (located : f.locate path = .ok place) (directory : f.entry? place = some .directory) :
    f.isDirectory path = true := by
  rw [isDirectory, find, located]
  simp only [bind, Except.bind, directory]
  rfl

/-- Such a path leads to a name in one of the directories above it. -/
theorem Writable.located (h : f.Writable path) : ∃ made reached name, f.createParents path = .ok made ∧
    made.locate path = .ok (reached ++ [name]) ∧ made.entry? reached = some .directory ∧
    made.entry? (reached ++ [name]) ≠ some .directory := by
  obtain ⟨made, created, free⟩ := h.parents
  have located : made.locate path = made.locateFrom [] (names path) := by
    rw [locate, if_neg (by simpa using h.nonempty)]
  have elsewhere {place : List String} (led : made.locate path = .ok place) : made.entry? place ≠ some .directory := by
    intro directory
    rw [isDirectory_of_locate led directory] at free
    cases free
  obtain ⟨reached, led, opened, -⟩ := createFrom_open created f.open_root
  rcases List.eq_nil_or_concat (names path) with none | ⟨front, last, same⟩
  · rw [none] at located
    exact absurd rfl (elsewhere located)
  · have here := opened reached (List.prefix_refl _)
    rw [List.concat_eq_append] at same
    rw [same, List.dropLast_concat] at led
    rw [same, locateFrom_append, led] at located
    simp only [Except.bind, locateFrom, here] at located
    by_cases up : last = ".."
    · rw [if_pos up] at located
      exact absurd (opened _ (List.dropLast_prefix reached)) (elsewhere located)
    · rw [if_neg up] at located
      exact ⟨made, reached, last, created, located, here, elsewhere located⟩

/-- What is written to such a path is read from it, whatever was there before. -/
theorem Writable.written (h : f.Writable path) (content : List UInt8) :
    ∃ made after, f.createParents path = .ok made ∧ made.write path content = .ok after ∧
      after.read path = .ok content := by
  obtain ⟨made, reached, name, created, located, above, free⟩ := h.located
  have differs : made.Differs _ (reached ++ [name]) _ := made.differs_put (by simp) (.file content)
  refine ⟨made, made.put (reached ++ [name]) (.file content), created, ?_, ?_⟩
  · rw [write, located]
    simp only [bind, Except.bind, List.dropLast_concat, above, h.name]
    cases there : made.entry? (reached ++ [name]) with
    | none => rfl
    | some e =>
      cases e with
      | directory => exact absurd there free
      | file old => rfl
  · have there := differs (reached ++ [name])
    rw [if_pos rfl] at there
    have located' : (made.put (reached ++ [name]) (.file content)).locate path = .ok (reached ++ [name]) := by
      rw [locate] at located ⊢
      split at located
      · cases located
      · rename_i some
        rw [if_neg some]
        exact locateFrom_congr (differs.directories free) located
    rw [read, find, located']
    simp only [bind, Except.bind, there, h.name]
    rfl

end Saving

end ProxyMonitor.Files
