import ProxyMonitor.Page
import ProxyMonitor.Record.Blacklist
import ProxyMonitor.Record.History
import ProxyMonitor.Record.Pool
import ProxyMonitor.Record.Reverify
/-! The records of each page. -/
namespace ProxyMonitor.Record
open ProxyMonitor.Json

/-- A type of records, how they are read and written, and how they are shown. -/
structure Collection where
  Item : Type
  decode : Decoder Item
  encode : Item → Value
  listing : Listing Item

def Collection.ofPage : Page → Collection
  | .history => ⟨HistoryRecord, HistoryRecord.decode, HistoryRecord.encode, HistoryRecord.listing⟩
  | .pool => ⟨PoolRecord, PoolRecord.decode, PoolRecord.encode, PoolRecord.listing⟩
  | .blacklist => ⟨BlacklistRecord, BlacklistRecord.decode, BlacklistRecord.encode, BlacklistRecord.listing⟩
  | .reverify => ⟨ReverifyRecord, ReverifyRecord.decode, ReverifyRecord.encode, ReverifyRecord.listing⟩

end ProxyMonitor.Record
