import ProxyMonitor.Number.Decimal
import ProxyMonitor.Time.Instant
/-! Sizes, durations and ages for people. -/
namespace ProxyMonitor.Readable
open ProxyMonitor.Text ProxyMonitor.Time

private def kilo : Nat := 1024

/-- A number with one decimal place and its unit. -/
private def tenths (x : Binary64) (unit : String) : String :=
  String.ofList (x.fixed 1) ++ unit

/-- A number of bytes, in units of 1024. -/
def size (bytes : Nat) : String :=
  let inUnit := fun (unit : Nat) => (Binary64.ofNat bytes).div (Binary64.ofNat unit)
  if kilo * kilo * kilo ≤ bytes then tenths (inUnit (kilo * kilo * kilo)) " GB"
  else if kilo * kilo ≤ bytes then tenths (inUnit (kilo * kilo)) " MB"
  else if kilo ≤ bytes then tenths (inUnit kilo) " KB"
  else s!"{bytes} B"

private def wholeMillis (x : Binary64) : String :=
  String.ofList (x.fixed 0) ++ "ms"

/-- A measured duration; zero means that none was measured. -/
def nanoseconds (nanos : Nat) : String :=
  if nanos = 0 then "-" else
  let millis := (Binary64.ofNat nanos).div (Binary64.ofNat 1000000)
  if millis.atLeast 1000 then tenths (millis.div (Binary64.ofNat 1000)) "s" else wholeMillis millis

def seconds (x : Binary64) : String :=
  if x.atLeast 1 then tenths x "s" else wholeMillis (x.mul (Binary64.ofNat 1000))

private def span (seconds : Nat) : String :=
  if seconds < 60 then s!"{seconds}s"
  else if seconds < 3600 then s!"{seconds / 60}m"
  else if seconds < 86400 then s!"{seconds / 3600}h"
  else s!"{seconds / 86400}d"

/-- How long before or after `now` a time is. -/
def age (time now : Instant) : String :=
  let delta := now.secondsSince time
  if delta < 0 then "in " ++ span delta.natAbs else span delta.natAbs ++ " ago"

/-- The age of a time in seconds since 1970; a time that is not after that never was. -/
def unixAge (seconds : Int) (now : Instant) : String :=
  match Instant.ofUnix? seconds with
  | some time => if 0 < seconds then age time now else "never"
  | none => "never"

/-- At most `limit` characters; a cut is marked by three dots if there is room for more than them. -/
def truncated (text : String) (limit : Nat) : String :=
  let chars := text.toList
  if chars.length ≤ limit then text
  else if limit ≤ 3 then String.ofList (chars.take limit)
  else String.ofList (chars.take (limit - 3)) ++ "..."

end ProxyMonitor.Readable
