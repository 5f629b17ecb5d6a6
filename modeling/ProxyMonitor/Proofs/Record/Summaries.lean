import Mathlib.Algebra.GroupWithZero.Nat
import ProxyMonitor.Proofs.Record.Reencoded

/-! What is said about all records of an answer: the exact sums of their words, as long as these are words themselves. -/
namespace ProxyMonitor
open ProxyMonitor.Json ProxyMonitor.Json.Decoder ProxyMonitor.Record ProxyMonitor.Http

namespace Record

/-- The sum of a column, however large it is. -/
def exactSum (column : List UInt64) : Nat :=
  (column.map UInt64.toNat).sum

@[simp] theorem exactSum_cons (next : UInt64) (rest : List UInt64) : exactSum (next :: rest) = next.toNat + exactSum rest :=
  List.sum_cons

theorem total_eq (column : List UInt64) :
    total column = if exactSum column < UInt64.size then .ok (exactSum column).toUInt64 else .error .sum := by
  have sum : (column.map UInt64.toNat).foldl (· + ·) 0 = exactSum column := List.sum_eq_foldl.symm
  rw [total, sum]

/-- One word more, unless the sum is not a word. -/
def plus (sum next : UInt64) : Except Overflow UInt64 :=
  if sum.toNat + next.toNat < UInt64.size then .ok (sum + next) else .error .sum

theorem foldlM_plus (sum : UInt64) (column : List UInt64) :
    column.foldlM plus sum =
      if sum.toNat + exactSum column < UInt64.size then .ok (sum.toNat + exactSum column).toUInt64 else .error .sum := by
  induction column generalizing sum with
  | nil =>
    have none : sum.toNat + exactSum [] = sum.toNat := Nat.add_zero _
    rw [none, if_pos sum.toNat_lt]
    exact congrArg Except.ok UInt64.ofNat_toNat.symm
  | cons next rest ih =>
    rw [List.foldlM_cons, plus, exactSum_cons, ← Nat.add_assoc]
    by_cases fits : sum.toNat + next.toNat < UInt64.size
    · have word : (sum + next).toNat = sum.toNat + next.toNat := (UInt64.toNat_add _ _).trans (Nat.mod_eq_of_lt fits)
      rw [if_pos fits, ← word]
      exact ih (sum + next)
    · rw [if_neg fits, if_neg fun all => fits (Nat.lt_of_le_of_lt (Nat.le_add_right _ _) all)]
      rfl

/-- The sum is there exactly when no step of adding one word after the other overflows. -/
theorem total_eq_foldlM (column : List UInt64) : total column = column.foldlM plus 0 := by
  have start : (0 : UInt64).toNat + exactSum column = exactSum column := Nat.zero_add _
  rw [total_eq, foldlM_plus, start]

theorem total_of_lt {column : List UInt64} (fits : exactSum column < UInt64.size) :
    ∃ sum, total column = .ok sum ∧ sum.toNat = exactSum column :=
  ⟨(exactSum column).toUInt64, by rw [total_eq, if_pos fits], UInt64.toNat_ofNat_of_lt fits⟩

theorem total_of_not_lt {column : List UInt64} (large : ¬ exactSum column < UInt64.size) : total column = .error .sum := by
  rw [total_eq, if_neg large]

end Record

/-- Records that survive being written are those of some answer. -/
theorem Answer.exists_body {α : Type} {record : Decoder α} {write : α → Value} {records : List α} {status : Status}
    (success : status.isSuccess = true) (each : ∀ r ∈ records, Survives 2 record write r) :
    ∃ body a, Answer.ofResponse record status body = .ok a ∧ a.records = records := by
  have survives : Survives 5 (Answer.decode record) (Answer.encode write) ⟨0, records, none⟩ := Answer.survives each
  have blank : ∀ c ∈ "".toList, Token.isSpace c = true := nofun
  obtain ⟨compact, -⟩ := survives.exact.read_text blank
  refine ⟨Text.Utf8.ofString ((Answer.encode write ⟨0, records, none⟩).toText ++ ""), ⟨0, records, none⟩,
    (Answer.ofResponse_eq_ok success).mpr ?_, rfl⟩
  rw [Decoder.run, compact, Option.bind_some, survives.read (by decide)]

namespace HistoryRecord

theorem summary_eq (records : List HistoryRecord) :
    listing.summary records =
      if records = [] then .ok none
      else if exactSum (records.map size) < UInt64.size then
        .ok (some s!"{Readable.size (exactSum (records.map size))} transferred")
      else .error .sum := by
  cases records with
  | nil => rfl
  | cons first rest =>
    have summary : listing.summary (first :: rest) = do
      let bytes ← total ((first :: rest).map size)
      return some s!"{Readable.size bytes.toNat} transferred" := rfl
    rw [summary, if_neg (List.cons_ne_nil first rest)]
    split
    · rename_i fits
      obtain ⟨sum, summed, exact⟩ := total_of_lt fits
      rw [summed, ← exact]
      rfl
    · rename_i large
      rw [total_of_not_lt large]
      rfl

/-- Every size can be read. -/
theorem survives_size (n : UInt64) :
    Survives 2 decode (fun r => .object [("Size", .nat r.size.toNat)]) { size := n } := by
  constructor
  · exact .object (List.forall_mem_singleton.mpr (.int _))
  · intro depth deep
    refine read_object (by decide : ["Size"].Nodup) deep fun inner deep => ?_
    refine absentField rfl (absentField rfl (absentField rfl (absentField rfl (absentField rfl ?_))))
    refine absentField rfl (absentField rfl (absentField rfl (absentField rfl (absentField rfl ?_))))
    exact (survives_word64 n).field deep rfl (absentField rfl rfl)

end HistoryRecord

namespace PoolRecord

theorem summary_eq (records : List PoolRecord) :
    listing.summary records =
      if records = [] then .ok none
      else if exactSum (records.map offered) < UInt64.size ∧ exactSum (records.map succeed) < UInt64.size then
        .ok (some s!"{exactSum (records.map offered)} offered, {exactSum (records.map succeed)} succeeded")
      else .error .sum := by
  cases records with
  | nil => rfl
  | cons first rest =>
    have summary : listing.summary (first :: rest) = do
      let offered ← total ((first :: rest).map offered)
      let succeed ← total ((first :: rest).map succeed)
      return some s!"{offered} offered, {succeed} succeeded" := rfl
    rw [summary, if_neg (List.cons_ne_nil first rest)]
    by_cases fits : exactSum ((first :: rest).map offered) < UInt64.size
    · obtain ⟨offered, summed, exact⟩ := total_of_lt fits
      by_cases fits' : exactSum ((first :: rest).map succeed) < UInt64.size
      · obtain ⟨succeed, summed', exact'⟩ := total_of_lt fits'
        rw [if_pos ⟨fits, fits'⟩, summed, summed', ← exact, ← exact']
        rfl
      · rw [if_neg fun both => fits' both.2, summed, total_of_not_lt fits']
        rfl
    · rw [if_neg fun both => fits both.1, total_of_not_lt fits]
      rfl

/-- Every pair of counters can be read. -/
theorem survives_counters (n m : UInt64) :
    Survives 2 decode (fun r => .object [("Offered", .nat r.offered.toNat), ("Succeed", .nat r.succeed.toNat)])
      { offered := n, succeed := m } := by
  constructor
  · refine .object ?_
    simp only [List.forall_mem_cons]
    exact ⟨.int _, .int _, nofun⟩
  · intro depth deep
    refine read_object (by decide : ["Offered", "Succeed"].Nodup) deep fun inner deep => ?_
    refine absentField rfl (absentField rfl (absentField rfl (absentField rfl ?_)))
    refine absentField rfl (absentField rfl (absentField rfl (absentField rfl ?_)))
    refine (survives_word64 n).field deep rfl (absentField rfl ((survives_word64 m).field deep rfl ?_))
    exact absentField rfl (absentField rfl (absentField rfl (absentField rfl (absentField rfl rfl))))

end PoolRecord

namespace Answer

/-- Summaries are exact as long as the sums are words. For every answer to a query for history or the pool there is no summary
where there are no records. Otherwise it has the exact sums of the columns in it, if each of them is a word, and is not there at
all if one is larger. An answer can have any words in these columns. -/
theorem summary_exact_or_overflow {status : Status} (success : status.isSuccess = true) :
    (∀ body a, ofResponse HistoryRecord.decode status body = .ok a →
      HistoryRecord.listing.summary a.records =
        if a.records = [] then .ok none
        else if exactSum (a.records.map (·.size)) < UInt64.size then
          .ok (some s!"{Readable.size (exactSum (a.records.map (·.size)))} transferred")
        else .error .sum) ∧
    (∀ body a, ofResponse PoolRecord.decode status body = .ok a →
      PoolRecord.listing.summary a.records =
        if a.records = [] then .ok none
        else if exactSum (a.records.map (·.offered)) < UInt64.size ∧ exactSum (a.records.map (·.succeed)) < UInt64.size then
          .ok (some s!"{exactSum (a.records.map (·.offered))} offered, {exactSum (a.records.map (·.succeed))} succeeded")
        else .error .sum) ∧
    (∀ sizes, ∃ body a, ofResponse HistoryRecord.decode status body = .ok a ∧ a.records.map (·.size) = sizes) ∧
    ∀ counters, ∃ body a, ofResponse PoolRecord.decode status body = .ok a ∧
      a.records.map (fun r => (r.offered, r.succeed)) = counters := by
  refine ⟨fun _ a _ => HistoryRecord.summary_eq a.records, fun _ a _ => PoolRecord.summary_eq a.records, ?_, ?_⟩
  · intro sizes
    have each : ∀ r ∈ sizes.map fun n => ({ size := n } : HistoryRecord), Survives 2 HistoryRecord.decode _ r :=
      List.forall_mem_map.mpr fun n _ => HistoryRecord.survives_size n
    obtain ⟨body, a, read, records⟩ := exists_body success each
    refine ⟨body, a, read, ?_⟩
    rw [records, List.map_map]
    exact List.map_id sizes
  · intro counters
    have each : ∀ r ∈ counters.map fun (n, m) => ({ offered := n, succeed := m } : PoolRecord),
        Survives 2 PoolRecord.decode _ r :=
      List.forall_mem_map.mpr fun (n, m) _ => PoolRecord.survives_counters n m
    obtain ⟨body, a, read, records⟩ := exists_body success each
    refine ⟨body, a, read, ?_⟩
    rw [records, List.map_map]
    exact List.map_id counters

private def fullBody : List UInt8 :=
  Text.Utf8.ofString "\x7b\"Total\":1,\"Records\":[\x7b\"Offered\":18446744073709551615,\"Succeed\":7\x7d]\x7d"

theorem summary_exact_or_overflow_full :
    Status.isSuccess ⟨200⟩ = true ∧
      ofResponse PoolRecord.decode ⟨200⟩ fullBody = .ok ⟨1, [{ offered := 18446744073709551615, succeed := 7 }], none⟩ ∧
      PoolRecord.listing.summary [{ offered := 18446744073709551615, succeed := 7 }] =
        .ok (some "18446744073709551615 offered, 7 succeeded") := by
  have success : Status.isSuccess ⟨200⟩ = true := by decide
  have read : ofResponse PoolRecord.decode ⟨200⟩ fullBody =
      .ok ⟨1, [{ offered := 18446744073709551615, succeed := 7 }], none⟩ := by with_unfolding_all rfl
  refine ⟨success, read, ((summary_exact_or_overflow success).2.1 fullBody _ read).trans ?_⟩
  with_unfolding_all rfl

private def largeBody : List UInt8 :=
  Text.Utf8.ofString
    "\x7b\"Total\":2,\"Records\":[\x7b\"Offered\":18446744073709551615\x7d,\x7b\"Offered\":1\x7d]\x7d"

/-- One proxy more than the largest word: the sum would be 18446744073709551616. -/
theorem summary_missing :
    ofResponse PoolRecord.decode ⟨200⟩ largeBody =
        .ok ⟨2, [{ offered := 18446744073709551615 }, { offered := 1 }], none⟩ ∧
      PoolRecord.listing.summary [{ offered := 18446744073709551615 }, { offered := 1 }] = .error .sum := by
  have large : ¬ exactSum [18446744073709551615, 1] < UInt64.size := by decide
  refine ⟨by with_unfolding_all rfl, ?_⟩
  rw [PoolRecord.summary_eq, if_neg (List.cons_ne_nil _ _), if_neg fun fits => large fits.1]

end Answer

end ProxyMonitor
