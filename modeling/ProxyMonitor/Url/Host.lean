import ProxyMonitor.Url.Address
import ProxyMonitor.Url.Domain
import ProxyMonitor.Url.Percent
/-! Hosts of URLs, and what can be wrong with a URL. -/
namespace ProxyMonitor.Url
open ProxyMonitor.Text

inductive Problem where
  | emptyHost | invalidName | invalidPort | invalidIpv4 | invalidIpv6 | invalidCharacter | noBase
deriving DecidableEq, Repr

def Problem.message : Problem → String
  | .emptyHost => "empty host"
  | .invalidName => "invalid international domain name"
  | .invalidPort => "invalid port number"
  | .invalidIpv4 => "invalid IPv4 address"
  | .invalidIpv6 => "invalid IPv6 address"
  | .invalidCharacter => "invalid domain character"
  | .noBase => "relative URL without a base"

inductive Host where
  | name (text : List Char)
  | ipv4 (address : Nat)
  | ipv6 (pieces : List Nat)
deriving DecidableEq, Repr

namespace Host

def write : Host → List Char
  | .name text => text
  | .ipv4 address => Ipv4.write address
  | .ipv6 pieces => '[' :: Ipv6.write pieces ++ [']']

private def bracketed (text : List Char) : Except Problem Host :=
  if text.getLast? = some ']' then
    match Ipv6.read text.dropLast with
    | some pieces => .ok (.ipv6 pieces)
    | none => .error .invalidIpv6
  else .error .invalidIpv6

/-- The host of a scheme with registered names. -/
def readName (text : List Char) : Except Problem Host :=
  match text with
  | '[' :: rest => bracketed rest
  | text =>
    match (Utf8.decode? (Percent.decode text)).bind Domain.toAscii? with
    | none => .error .invalidName
    | some ascii =>
      if ascii.isEmpty then .error .emptyHost
      else if Ipv4.endsInNumber ascii then
        match Ipv4.read ascii with
        | some address => .ok (.ipv4 address)
        | none => .error .invalidIpv4
      else .ok (.name ascii)

private def isForbidden (c : Char) : Bool :=
  c ∈ ['\x00', '\t', '\n', '\r', ' ', '#', '/', ':', '<', '>', '?', '@', '[', '\\', ']', '^', '|']

/-- The host of any other scheme: its text. -/
def readText (text : List Char) : Except Problem Host :=
  match text with
  | '[' :: rest => bracketed rest
  | text =>
    if text.any isForbidden then .error .invalidCharacter else .ok (.name (Percent.encode Percent.controls text))

end Host
end ProxyMonitor.Url
