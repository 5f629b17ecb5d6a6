/-! What comes from the terminal: keys, and other events. -/
namespace ProxyMonitor.Screen

inductive KeyCode where
  | escape | tab | backTab | backspace | enter | other
  | function (n : Nat)
  | char (c : Char)
deriving DecidableEq, Repr

inductive KeyKind where
  | press | hold | release
deriving DecidableEq, Repr

structure Key where
  code : KeyCode
  control : Bool := false
  alt : Bool := false
  kind : KeyKind := .press
deriving DecidableEq, Repr

/-- Everything that the terminal reports. -/
inductive TerminalEvent where
  | key (k : Key)
  | resize (width height : Nat)
  | mouse | focus | blur | paste
deriving DecidableEq, Repr

/-- What the program reacts to. -/
inductive Input where
  | key (k : Key)
  | resize (width height : Nat)
deriving DecidableEq, Repr

/-- Keys count when they are pressed or held, not when they are released. -/
def TerminalEvent.input? : TerminalEvent → Option Input
  | .key k => if k.kind = .release then none else some (.key k)
  | .resize width height => some (.resize width height)
  | _ => none

end ProxyMonitor.Screen
