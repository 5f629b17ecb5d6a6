/-! Log entries, and computations that write some. -/
namespace ProxyMonitor

namespace Log

inductive Level where
  | error | warn | info | debug | trace
deriving DecidableEq, Repr

/-- The lower, the more urgent. -/
def Level.rank : Level → Nat
  | .error => 1
  | .warn => 2
  | .info => 3
  | .debug => 4
  | .trace => 5

def Level.name : Level → String
  | .error => "ERROR"
  | .warn => "WARN"
  | .info => "INFO"
  | .debug => "DEBUG"
  | .trace => "TRACE"

/-- What happened in the part of the program that `target` names. -/
structure Entry where
  level : Level
  target : String
  message : String
  fields : List (String × String) := []
deriving DecidableEq, Repr

/-- The entry on one line, its fields after the message. -/
def Entry.text (e : Entry) : String :=
  s!"{e.level.name} {e.target}: " ++ " ".intercalate (e.message :: e.fields.map fun (key, value) => s!"{key}={value}")

end Log

/-- A value and the entries written on the way to it, first one first. -/
structure Logged (α : Type) where
  value : α
  entries : List Log.Entry := []
deriving Repr

namespace Logged

instance : Monad Logged where
  pure a := ⟨a, []⟩
  bind x f :=
    let y := f x.value
    ⟨y.value, x.entries ++ y.entries⟩

def write (e : Log.Entry) : Logged Unit :=
  ⟨(), [e]⟩

@[simp] theorem value_pure (a : α) : (pure a : Logged α).value = a := rfl

@[simp] theorem value_bind (x : Logged α) (f : α → Logged β) : (x >>= f).value = (f x.value).value := rfl

@[simp] theorem value_write (e : Log.Entry) : (write e).value = () := rfl

@[simp] theorem entries_pure (a : α) : (pure a : Logged α).entries = [] := rfl

@[simp] theorem entries_bind (x : Logged α) (f : α → Logged β) :
    (x >>= f).entries = x.entries ++ (f x.value).entries := rfl

@[simp] theorem entries_write (e : Log.Entry) : (write e).entries = [e] := rfl

end Logged
end ProxyMonitor
