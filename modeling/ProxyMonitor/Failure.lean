/-! Why a request failed. -/
namespace ProxyMonitor

/-- What kept a request from a usable answer. -/
inductive TransportCause where
  | timedOut (seconds : Nat)
  | undecodable (problem : String)
  | unsent (url : String)
  | unnamable (url : String)
  | invalidUrl (url reason : String)
  | cannotAppend (base : String)
  | other (text : String)
deriving DecidableEq, Repr

/-- Without a usable answer a request failed in transport; otherwise the server said what was wrong. -/
inductive Failure where
  | transport (cause : TransportCause)
  | application (status : Nat) (message : String)
deriving DecidableEq, Repr

namespace Failure

/-- The text shown to the user; a server's message is shown as it is. -/
def message : Failure → String
  | .transport (.timedOut seconds) => s!"request timed out after {seconds}s"
  | .transport (.undecodable problem) => s!"could not decode response: {problem}"
  | .transport (.unsent url) => s!"error sending request for url ({url})"
  | .transport (.unnamable url) => s!"builder error for url ({url})"
  | .transport (.invalidUrl url reason) => s!"invalid URL '{url}': {reason}"
  | .transport (.cannotAppend base) => s!"cannot append to '{base}'"
  | .transport (.other text) => text
  | .application _ message => message

def isTransport : Failure → Bool
  | .transport _ => true
  | .application .. => false

end Failure

/-- The last failure of a view, until something clears it. -/
structure ErrorChannel where
  last : Option Failure := none
deriving DecidableEq, Repr

namespace ErrorChannel

def raise (_ : ErrorChannel) (f : Failure) : ErrorChannel :=
  ⟨some f⟩

def clear (_ : ErrorChannel) : ErrorChannel :=
  ⟨none⟩

def message (c : ErrorChannel) : Option String :=
  c.last.map Failure.message

end ErrorChannel
end ProxyMonitor
