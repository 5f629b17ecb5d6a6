import ProxyMonitor.Proofs.Url.Join

/-! The authority of a web address, a host and perhaps a port, is read in the same way whatever stands after it. -/
namespace ProxyMonitor.Url
open ProxyMonitor.Text
variable {scheme authority more : List Char}

/-- The text has no path, query or fragment in it, and no credentials. -/
def IsAuthority (text : List Char) : Prop :=
  ∀ c ∈ text, isSlash true c = false ∧ endsPath c = false ∧ c ≠ '@'

/-- Nothing of the text belongs to an authority before it. -/
def EndsAuthority (text : List Char) : Prop :=
  ∀ c ∈ text.head?, c = '/' ∨ endsPath c = true

theorem EndsAuthority.head {c : Char} {rest : List Char} (h : EndsAuthority (c :: rest)) :
    (isSlash true c || endsPath c) = true := by
  rcases h c rfl with rfl | h
  · rfl
  · rw [h, Bool.or_true]

/-- Letters name no scheme where no colon follows them. -/
theorem splitScheme_word {word more : List Char} (letters : ∀ c ∈ word, c.isLower = true) (stop : EndsAuthority more) :
    splitScheme (word ++ more) = none := by
  have within : ∀ c ∈ word, (c.isAlphanum || c == '+' || c == '-' || c == '.') = true := fun c hc => by
    unfold Char.isAlphanum Char.isAlpha
    rw [letters c hc, Bool.or_true]
    rfl
  unfold splitScheme
  dsimp only
  rw [List.dropWhile_append_of_pos within]
  cases more with
  | nil => rfl
  | cons c rest =>
    rcases stop c rfl with rfl | mark
    · rfl
    · rcases eq_of_endsPath mark with rfl | rfl <;> rfl

theorem readCredentials_append (plain : IsAuthority authority) (stop : EndsAuthority more) :
    readCredentials true (authority ++ more) = .ok ([], [], authority ++ more) := by
  have within : ∀ c ∈ authority, (!(isSlash true c || endsPath c)) = true := by
    intro c hc
    obtain ⟨slash, mark, _⟩ := plain c hc
    rw [slash, mark]
    rfl
  have area : (authority ++ more).takeWhile (fun c => !(isSlash true c || endsPath c)) = authority := by
    rw [List.takeWhile_append_of_pos within]
    cases more with
    | nil => rw [List.takeWhile_nil, List.append_nil]
    | cons c rest => rw [List.takeWhile_cons_of_neg (by simp [stop.head]), List.append_nil]
  unfold readCredentials
  dsimp only
  rw [area, if_neg fun hc => (plain '@' hc).2.2 rfl]

theorem hostText_append (plain : IsAuthority authority) (stop : EndsAuthority more) (inBrackets : Bool) :
    hostText true inBrackets (authority ++ more) =
      ((hostText true inBrackets authority).1, (hostText true inBrackets authority).2 ++ more) := by
  induction authority generalizing inBrackets with
  | nil =>
    cases more with
    | nil => rfl
    | cons c rest =>
      have ends : (c == ':' && !inBrackets || isSlash true c || endsPath c) = true := by
        rw [Bool.or_assoc, stop.head, Bool.or_true]
      rw [List.nil_append, hostText, hostText, if_pos ends]
      rfl
  | cons c rest ih =>
    have later := ih fun d hd => plain d (List.mem_cons_of_mem _ hd)
    rw [List.cons_append, hostText, hostText]
    split
    · rfl
    · dsimp only
      rw [later]

theorem mem_of_mem_hostText {c : Char} {inBrackets : Bool} (h : c ∈ (hostText true inBrackets authority).2) :
    c ∈ authority := by
  induction authority generalizing inBrackets with
  | nil => exact h
  | cons d rest ih =>
    rw [hostText] at h
    split at h
    · exact h
    · exact List.mem_cons_of_mem _ (ih h)

/-- A host is left at the colon of a port, if at all. -/
theorem hostText_rest (plain : IsAuthority authority) (inBrackets : Bool) :
    ∀ c ∈ (hostText true inBrackets authority).2.head?, c = ':' := by
  induction authority generalizing inBrackets with
  | nil => nofun
  | cons d rest ih =>
    obtain ⟨slash, mark, _⟩ := plain d List.mem_cons_self
    rw [hostText]
    split
    · rename_i ends
      rintro c ⟨⟩
      rw [slash, mark, Bool.or_false, Bool.or_false, Bool.and_eq_true, beq_iff_eq] at ends
      exact ends.1
    · exact ih (fun c hc => plain c (List.mem_cons_of_mem _ hc)) _

theorem readPort_append (stop : EndsAuthority more) :
    readPort scheme (authority ++ more) =
      (readPort scheme authority).map fun found => (found.1, found.2 ++ more) := by
  have noDigit : more.takeWhile isDigit = [] := by
    cases more with
    | nil => rfl
    | cons c rest =>
      rcases stop c rfl with rfl | mark
      · rfl
      · rcases eq_of_endsPath mark with rfl | rfl <;> rfl
  have run : (authority ++ more).takeWhile isDigit = authority.takeWhile isDigit := by
    rw [List.takeWhile_append, noDigit, List.append_nil]
    split
    · rename_i all
      exact ((List.takeWhile_prefix _).eq_of_length all).symm
    · rfl
  have rest : (authority ++ more).drop (authority.takeWhile isDigit).length =
      authority.drop (authority.takeWhile isDigit).length ++ more :=
    List.drop_append_of_le_length (List.takeWhile_prefix _).length_le
  unfold readPort
  dsimp only
  rw [run, rest]
  generalize hleft : authority.drop (authority.takeWhile isDigit).length = left
  have allowed : (left ++ more).head?.all (fun c => c == '/' || c == '\\' || endsPath c) =
      left.head?.all (fun c => c == '/' || c == '\\' || endsPath c) := by
    cases left with
    | cons c left => rfl
    | nil =>
      cases more with
      | nil => rfl
      | cons c more =>
        rcases stop c rfl with rfl | mark
        · rfl
        · simp [mark]
  rw [allowed]
  split
  · split <;> rfl
  · rfl

theorem finish_fragment (u : Url) (fragment : Option (List Char)) (text : List Char) :
    finish { u with fragment } text = finish u text := by
  unfold finish
  dsimp only

theorem finishPath_path (u : Url) (text : List Char) :
    (finishPath u text).path =
      if !isSpecial u.scheme && (beforePathEnd text).isEmpty then .segments []
      else readPath u.scheme [] (afterSlash (isSpecial u.scheme) (beforePathEnd text)) := by
  rw [finishPath, finish_path]

/-- A path that was read before counts no more. -/
theorem finishPath_finishPath (u : Url) (text : List Char) : finishPath (finishPath u []) text = finishPath u text := by
  have first : finishPath u [] = { u with path := (finishPath u []).path, fragment := none } := rfl
  rw [first]
  unfold finishPath
  exact finish_fragment { u with path := _ } none _

/-- The port after a host, if there is one. -/
def readPortAfter (scheme text : List Char) : Except Problem (Option Nat × List Char) :=
  match text with
  | ':' :: rest => readPort scheme rest
  | rest => .ok (none, rest)

theorem readPortAfter_colon (scheme text : List Char) : readPortAfter scheme (':' :: text) = readPort scheme text := rfl

theorem readPortAfter_other {text : List Char} (h : ∀ rest, text ≠ ':' :: rest) :
    readPortAfter scheme text = .ok (none, text) := by
  unfold readPortAfter
  split
  · exact absurd rfl (h _)
  · rfl

theorem readPortAfter_append (stop : EndsAuthority more) :
    readPortAfter scheme (authority ++ more) =
      (readPortAfter scheme authority).map fun found => (found.1, found.2 ++ more) := by
  cases authority with
  | nil =>
    rw [List.nil_append, readPortAfter_other, readPortAfter_other (by simp)]
    · rfl
    · rintro rest rfl
      rcases stop ':' rfl with h | h <;> exact absurd h (by decide)
  | cons c rest =>
    by_cases colon : c = ':'
    · rw [colon, List.cons_append, readPortAfter_colon, readPortAfter_colon]
      exact readPort_append stop
    · have other {rest : List Char} : ∀ after, c :: rest ≠ ':' :: after :=
        fun _ h => colon (List.cons.inj h).1
      rw [List.cons_append, readPortAfter_other other, readPortAfter_other other]
      rfl

/-- Nothing is left after a host and its port. -/
theorem readPortAfter_rest (plain : IsAuthority authority) {found : Option Nat × List Char}
    (h : readPortAfter scheme (hostText true false authority).2 = .ok found) : found.2 = [] := by
  have colon := hostText_rest plain false
  have within {c : Char} (hc : c ∈ (hostText true false authority).2) := plain c (mem_of_mem_hostText hc)
  generalize (hostText true false authority).2 = rest at h colon within
  cases rest with
  | nil =>
    cases h
    rfl
  | cons c rest =>
    obtain rfl := colon c rfl
    rw [readPortAfter, readPort] at h
    dsimp only at h
    split at h
    · rename_i allowed
      have left : rest.drop (rest.takeWhile isDigit).length = [] := by
        cases left : rest.drop (rest.takeWhile isDigit).length with
        | nil => rfl
        | cons d after =>
          have hd : d ∈ rest := List.mem_of_mem_drop (left ▸ List.mem_cons_self)
          obtain ⟨slash, mark, _⟩ := within (List.mem_cons_of_mem _ hd)
          simp only [left, List.head?_cons, Option.all_some, mark, Bool.or_false] at allowed
          simp [isSlash, allowed] at slash
      split at h
      · cases h
      · cases h
        exact left
    · cases h

section Special
variable (special : isSpecial scheme = true)
include special

/-- What a scheme with registered names makes of a text without credentials. -/
theorem readAuthority_eq {text : List Char} (h : readCredentials true text = .ok ([], [], text)) :
    readAuthority scheme text =
      if (hostText true false text).1.isEmpty then .error .emptyHost
      else (Host.readName (hostText true false text).1).bind fun host =>
        (readPortAfter scheme (hostText true false text).2).map fun found =>
          finishPath { scheme, host := some host, port := found.1, path := .segments [] } found.2 := by
  unfold readAuthority
  dsimp only
  rw [special, h]
  simp only [bind, Except.bind, Bool.true_or, Bool.and_true, if_true]
  split
  · rfl
  · cases Host.readName (hostText true false text).1 with
    | error problem => rfl
    | ok host =>
      dsimp only
      generalize (hostText true false text).2 = rest
      split
      · rename_i rest
        rw [readPortAfter_colon]
        cases readPort scheme rest <;> rfl
      · rename_i other
        rw [readPortAfter_other fun rest => other rest]
        rfl

/-- A host is read as it is where nothing follows, and then what follows it. -/
theorem readAuthority_append (plain : IsAuthority authority) (stop : EndsAuthority more) :
    readAuthority scheme (authority ++ more) = (readAuthority scheme authority).map (finishPath · more) := by
  have nothing : EndsAuthority [] := nofun
  have alone := readCredentials_append plain nothing
  rw [List.append_nil] at alone
  rw [readAuthority_eq special (readCredentials_append plain stop), readAuthority_eq special alone,
    hostText_append plain stop]
  dsimp only
  split
  · rfl
  · cases Host.readName (hostText true false authority).1 with
    | error problem => rfl
    | ok host =>
      simp only [Except.bind]
      rw [readPortAfter_append stop]
      cases port : readPortAfter scheme (hostText true false authority).2 with
      | error problem => rfl
      | ok found =>
        have rest := readPortAfter_rest plain port
        simp only [Except.map, rest, List.nil_append]
        rw [finishPath_finishPath]

/-- What is read of a host where nothing follows. -/
theorem readAuthority_eq_ok (noFile : isFile scheme = false) (plain : IsAuthority authority) {site : Url}
    (h : readAuthority scheme authority = .ok site) :
    ∃ host port, site = { scheme, host := some host, port, path := .segments [[]] } := by
  have nothing : EndsAuthority [] := nofun
  have alone := readCredentials_append plain nothing
  rw [List.append_nil] at alone
  rw [readAuthority_eq special alone] at h
  split at h
  · cases h
  · cases name : Host.readName (hostText true false authority).1 with
    | error problem =>
      rw [name] at h
      cases h
    | ok host =>
      cases port : readPortAfter scheme (hostText true false authority).2 with
      | error problem =>
        rw [name, port] at h
        cases h
      | ok found =>
        rw [name, port] at h
        simp only [Except.bind, Except.map, readPortAfter_rest plain port] at h
        cases h
        have path : readPath scheme [] [] = .segments [[]] := by
          rw [readPath_eq special noFile]
          rfl
        refine ⟨host, found.1, ?_⟩
        simp [finishPath, beforePathEnd, fromPathEnd, afterSlash, finish, special, path]

end Special

end ProxyMonitor.Url
