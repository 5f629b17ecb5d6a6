import ProxyMonitor.Text.Blank
/-! The tokens of a document. Strings keep their characters as written, so that a reader who skips one
never decodes it; a byte that is no text is a character without a value. -/
namespace ProxyMonitor.Json
open ProxyMonitor.Text

/-- One character of a string as it is written. -/
inductive StringUnit where
  | plain (c : Option Char)
  | escaped (c : Char)
  | code (n : Nat)
deriving DecidableEq, Repr

/-- A number as it is written: the digits before and after the point and those of the exponent, which
`downward` makes negative. -/
structure Literal where
  negative : Bool
  whole : List Char
  part : List Char
  exponent : Option (Bool × List Char)
deriving DecidableEq, Repr

inductive Token where
  | openBrace | closeBrace | openBracket | closeBracket | comma | colon
  | null | bool (b : Bool)
  | number (n : Literal)
  | text (s : List StringUnit)
deriving DecidableEq, Repr

namespace Token

abbrev Input := List (Option Char)

def escape? : Char → Option Char
  | '"' => some '"'
  | '\\' => some '\\'
  | '/' => some '/'
  | 'b' => some '\x08'
  | 'f' => some '\x0c'
  | 'n' => some '\n'
  | 'r' => some '\r'
  | 't' => some '\t'
  | _ => none

/-- Four hexadecimal digits. -/
def code? (a b c d : Option Char) : Option Nat := do
  let a ← hexValue? (← a)
  let b ← hexValue? (← b)
  let c ← hexValue? (← c)
  let d ← hexValue? (← d)
  return ((a * 16 + b) * 16 + c) * 16 + d

/-- The units of a string up to its closing quote, and what follows. -/
def stringUnits : Input → Option (List StringUnit × Input)
  | [] => none
  | some '"' :: rest => some ([], rest)
  | some '\\' :: some 'u' :: a :: b :: c :: d :: rest => do
    let n ← code? a b c d
    let (units, rest) ← stringUnits rest
    return (.code n :: units, rest)
  | some '\\' :: some e :: rest => do
    let c ← escape? e
    let (units, rest) ← stringUnits rest
    return (.escaped c :: units, rest)
  | some '\\' :: _ => none
  | c :: rest =>
    if c.any (·.toNat < 0x20) then none else do
      let (units, rest) ← stringUnits rest
      return (.plain c :: units, rest)

/-- The run of digits at the front, and what follows. -/
def digitRun : Input → List Char × Input
  | some c :: rest =>
    if isDigit c then
      let (run, rest) := digitRun rest
      (c :: run, rest)
    else ([], some c :: rest)
  | input => ([], input)

/-- The digits after a point, of which there is at least one; none where there is no point. -/
def fraction : Input → Option (List Char × Input)
  | some '.' :: rest =>
    match digitRun rest with
    | ([], _) => none
    | (run, rest) => some (run, rest)
  | input => some ([], input)

def signOf : Input → Bool × Input
  | some '-' :: rest => (true, rest)
  | some '+' :: rest => (false, rest)
  | input => (false, input)

def exponentOf : Input → Option (Option (Bool × List Char) × Input)
  | some c :: rest =>
    if c == 'e' || c == 'E' then
      match digitRun (signOf rest).2 with
      | ([], _) => none
      | (run, after) => some (some ((signOf rest).1, run), after)
    else some (none, some c :: rest)
  | input => some (none, input)

/-- A number without its sign: no digit may follow a leading zero. -/
def magnitude (negative : Bool) (input : Input) : Option (Literal × Input) := do
  let (whole, rest) := digitRun input
  if whole = ['0'] || whole.head?.any (· != '0') then
    let (part, rest) ← fraction rest
    let (exponent, rest) ← exponentOf rest
    return (⟨negative, whole, part, exponent⟩, rest)
  else none

def isSpace (c : Char) : Bool :=
  c == ' ' || c == '\n' || c == '\t' || c == '\r'

/-- The token that begins with `c`, and what follows it. -/
def first? (c : Char) (rest : Input) : Option (Token × Input) :=
  match c, rest with
  | '{', rest => some (.openBrace, rest)
  | '}', rest => some (.closeBrace, rest)
  | '[', rest => some (.openBracket, rest)
  | ']', rest => some (.closeBracket, rest)
  | ',', rest => some (.comma, rest)
  | ':', rest => some (.colon, rest)
  | 'n', some 'u' :: some 'l' :: some 'l' :: rest => some (.null, rest)
  | 't', some 'r' :: some 'u' :: some 'e' :: rest => some (.bool true, rest)
  | 'f', some 'a' :: some 'l' :: some 's' :: some 'e' :: rest => some (.bool false, rest)
  | '"', rest => (stringUnits rest).map fun (units, rest) => (.text units, rest)
  | '-', rest => (magnitude true rest).map fun (n, rest) => (.number n, rest)
  | c, rest =>
    if isDigit c then (magnitude false (some c :: rest)).map fun (n, rest) => (.number n, rest) else none

theorem digitRun_length (input : Input) : (digitRun input).2.length ≤ input.length := by
  fun_induction digitRun input with
  | case1 c rest digit run after found ih =>
    rw [found] at ih
    exact Nat.le_succ_of_le ih
  | case2 | case3 => exact Nat.le_refl _

theorem stringUnits_length {input rest : Input} {units : List StringUnit}
    (h : stringUnits input = some (units, rest)) : rest.length < input.length := by
  fun_induction stringUnits input generalizing units rest <;>
    simp_all [Option.bind_eq_some_iff] <;> grind

theorem fraction_length {input rest : Input} {part : List Char}
    (h : fraction input = some (part, rest)) : rest.length ≤ input.length := by
  unfold fraction at h
  split at h
  · rename_i tail
    have := digitRun_length tail
    split at h <;> simp_all
    omega
  · simp_all

private theorem signOf_length (input : Input) : (signOf input).2.length ≤ input.length := by
  unfold signOf
  split <;> simp

theorem exponentOf_length {input rest : Input} {e : Option (Bool × List Char)}
    (h : exponentOf input = some (e, rest)) : rest.length ≤ input.length := by
  unfold exponentOf at h
  split at h
  · rename_i tail
    have := digitRun_length (signOf tail).2
    have := signOf_length tail
    split at h
    · split at h <;> simp_all
      omega
    · simp_all
  · simp_all

theorem magnitude_length {negative : Bool} {input rest : Input} {n : Literal}
    (h : magnitude negative input = some (n, rest)) : rest.length ≤ input.length := by
  simp only [magnitude] at h
  split at h <;> simp only [Option.bind_eq_bind, Option.bind_eq_some_iff, Prod.exists, reduceCtorEq] at h
  obtain ⟨part, afterPart, hPart, e, afterE, hE, h⟩ := h
  have := digitRun_length input
  have := fraction_length hPart
  have := exponentOf_length hE
  simp at h
  obtain ⟨-, rfl⟩ := h
  omega

/-- The token that starts with the digit `c` is made of more than the digits before it. -/
private theorem magnitude_digit {c : Char} (hc : isDigit c) {rest after : Input} {n : Literal}
    (h : magnitude false (some c :: rest) = some (n, after)) : after.length ≤ rest.length := by
  simp only [magnitude] at h
  split at h <;> simp only [Option.bind_eq_bind, Option.bind_eq_some_iff, Prod.exists, reduceCtorEq] at h
  obtain ⟨part, afterPart, hPart, e, afterE, hE, h⟩ := h
  have hRun : (digitRun (some c :: rest)).2.length ≤ rest.length := by
    simpa [digitRun, hc] using digitRun_length rest
  have := fraction_length hPart
  have := exponentOf_length hE
  simp at h
  obtain ⟨-, rfl⟩ := h
  omega

theorem first?_length {c : Char} {rest after : Input} {t : Token}
    (h : first? c rest = some (t, after)) : after.length ≤ rest.length := by
  unfold first? at h
  split at h <;> simp at h <;> try (obtain ⟨-, rfl⟩ := h; grind)
  · obtain ⟨units, h, -⟩ := h
    exact Nat.le_of_lt (stringUnits_length h)
  · obtain ⟨n, h, -⟩ := h
    exact magnitude_length h
  · obtain ⟨hd, n, h, -⟩ := h
    exact magnitude_digit hd h

/-- The tokens at the front of a text, and what follows the last of them. -/
def leading : Input → List Token × Input
  | [] => ([], [])
  | none :: rest => ([], none :: rest)
  | some c :: rest =>
    if isSpace c then leading rest
    else match _found : first? c rest with
      | none => ([], some c :: rest)
      | some (token, after) =>
        let (tokens, left) := leading after
        (token :: tokens, left)
termination_by input => input.length
decreasing_by
  · simp
  all_goals
    have := first?_length _found
    simp only [List.length_cons]
    omega

/-- All tokens of a text. -/
def scan (input : Input) : Option (List Token) :=
  match leading input with
  | (tokens, []) => some tokens
  | _ => none

end Token
end ProxyMonitor.Json
