/-! UTF-8 over lists of bytes. `scan` reads any bytes: a character for each well-formed sequence and
`none` for each longest run of bytes that starts a sequence without completing it. -/
namespace ProxyMonitor.Text.Utf8

/-- The replacement character, shown for bytes that are no text. -/
def replacement : Char := '\uFFFD'

def encode (text : List Char) : List UInt8 :=
  text.flatMap String.utf8EncodeChar

def ofString (text : String) : List UInt8 :=
  encode text.toList

def within (low high : Nat) (b : UInt8) : Bool :=
  low ≤ b.toNat && b.toNat ≤ high

def tail (b : UInt8) : Bool :=
  within 0x80 0xBF b

def bits (b : UInt8) : Nat :=
  b.toNat % 64

/-- The range of the second byte of a sequence of three, by its first byte. It leaves out overlong forms
and surrogates. -/
def secondOfThree (b : UInt8) : UInt8 → Bool :=
  if b = 0xE0 then within 0xA0 0xBF else if b = 0xED then within 0x80 0x9F else tail

/-- The range of the second byte of a sequence of four, by its first byte. It leaves out overlong forms
and what lies above the last code point. -/
def secondOfFour (b : UInt8) : UInt8 → Bool :=
  if b = 0xF0 then within 0x90 0xBF else if b = 0xF4 then within 0x80 0x8F else tail

/-- Reads one sequence that begins with `b`: its character, if it is complete, and how many bytes after
`b` belong to it. -/
def readOne (b : UInt8) (rest : List UInt8) : Option Char × Nat :=
  if b < 0x80 then (some (Char.ofNat b.toNat), 0)
  else if within 0xC2 0xDF b then
    match rest with
    | c :: _ => if tail c then (some (Char.ofNat (b.toNat % 32 * 64 + bits c)), 1) else (none, 0)
    | [] => (none, 0)
  else if within 0xE0 0xEF b then
    match rest with
    | c :: rest => if secondOfThree b c then
        match rest with
        | d :: _ => if tail d then
            (some (Char.ofNat (b.toNat % 16 * 4096 + bits c * 64 + bits d)), 2) else (none, 1)
        | [] => (none, 1)
      else (none, 0)
    | [] => (none, 0)
  else if within 0xF0 0xF4 b then
    match rest with
    | c :: rest => if secondOfFour b c then
        match rest with
        | d :: rest => if tail d then
            match rest with
            | e :: _ => if tail e then
                (some (Char.ofNat (b.toNat % 8 * 262144 + bits c * 4096 + bits d * 64 + bits e)), 3)
              else (none, 2)
            | [] => (none, 2)
          else (none, 1)
        | [] => (none, 1)
      else (none, 0)
    | [] => (none, 0)
  else (none, 0)

def scan : List UInt8 → List (Option Char)
  | [] => []
  | b :: rest => (readOne b rest).1 :: scan (rest.drop (readOne b rest).2)
termination_by bytes => bytes.length
decreasing_by simp only [List.length_drop, List.length_cons]; omega

/-- The characters of well-formed bytes. -/
def decode? (bytes : List UInt8) : Option (List Char) :=
  (scan bytes).mapM id

/-- The characters of any bytes, a replacement character for each run that is no text. -/
def decodeLossy (bytes : List UInt8) : List Char :=
  (scan bytes).map (·.getD replacement)

def toString? (bytes : List UInt8) : Option String :=
  (decode? bytes).map String.ofList

end ProxyMonitor.Text.Utf8
