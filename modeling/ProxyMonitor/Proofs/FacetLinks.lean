import Mathlib.Data.List.Basic
import ProxyMonitor.Facet
import ProxyMonitor.Proofs.FilterHistory

/-! What facets look like, and where their links lead: to the filter of the entry, whatever the location was. -/
namespace ProxyMonitor
open ProxyMonitor.Text

namespace FacetEntry

theorem label_of_short {e : FacetEntry} (short : e.name.length ≤ labelLimit) : e.label = e.name :=
  if_pos (by rwa [String.length_toList])

theorem label_of_long {e : FacetEntry} (long : labelLimit < e.name.length) :
    e.label = String.ofList (e.name.toList.take labelLimit) ++ "..." :=
  if_neg (by rw [String.length_toList]; omega)

theorem drillDown_eq_some {e : FacetEntry} {link : String} :
    e.drillDown = some link ↔ e.name ≠ noLinkName ∧ (∃ c ∈ e.filter.toList, isBlank c = false) ∧ link = e.filter := by
  have blank : e.filter.toList.all isBlank = true ↔ ¬ ∃ c ∈ e.filter.toList, isBlank c = false := by simp
  unfold drillDown
  by_cases linked : e.name = noLinkName ∨ e.filter.toList.all isBlank = true
  · rw [if_pos linked]
    refine ⟨nofun, ?_⟩
    rintro ⟨named, written, _⟩
    rcases linked with unnamed | empty
    · exact absurd unnamed named
    · exact absurd written (blank.mp empty)
  · rw [if_neg linked]
    obtain ⟨named, written⟩ := not_or.mp linked
    have written : ∃ c ∈ e.filter.toList, isBlank c = false := by_contra fun empty => written (blank.mpr empty)
    constructor
    · rintro ⟨⟩
      exact ⟨named, written, rfl⟩
    · rintro ⟨_, _, rfl⟩
      rfl

/-- A link leads to a filter, never to none. -/
theorem ne_empty_of_drillDown {e : FacetEntry} {link : String} (h : e.drillDown = some link) : link ≠ "" := by
  obtain ⟨_, ⟨c, hc, _⟩, rfl⟩ := drillDown_eq_some.mp h
  intro empty
  rw [empty] at hc
  cases hc

end FacetEntry

namespace Facet

theorem isInformative_iff {f : Facet} : f.isInformative = true ↔ ∃ a ∈ f.top, ∃ b ∈ f.top, a.name ≠ b.name := by
  unfold isInformative
  cases f.top with
  | nil => simp
  | cons first rest =>
    rw [List.any_eq_true]
    constructor
    · rintro ⟨b, hb, differs⟩
      exact ⟨b, List.mem_cons_of_mem _ hb, first, List.mem_cons_self, bne_iff_ne.mp differs⟩
    · rintro ⟨a, ha, b, hb, differs⟩
      have other (e : FacetEntry) (he : e ∈ first :: rest) (ne : e.name ≠ first.name) :
          ∃ x ∈ rest, (x.name != first.name) = true := by
        rcases List.mem_cons.mp he with rfl | he
        · exact absurd rfl ne
        · exact ⟨e, he, bne_iff_ne.mpr ne⟩
      by_cases same : a.name = first.name
      · exact other b hb fun same' => differs (same.trans same'.symm)
      · exact other a ha same

/-- What is shown of facets leads where they say. The facets with entries of different names are shown, in order, and of
these every entry in order, with its value as it is and with its name, or the first 32 characters of a longer one and
three dots. An entry has a link unless it stands for empty values or its filter is blank, and the link is the filter as
it is. Where a link is followed, it becomes the filter of the location, in one pair; path and other pairs stay, and the
location says whether the filter is another one than before. -/
theorem facets_lead_to_filters (facets : List Facet) :
    views facets =
      (facets.filter fun f => ∃ a ∈ f.top, ∃ b ∈ f.top, a.name ≠ b.name).map
        (fun f => ⟨f.name, f.top.map FacetEntry.view⟩) ∧
    (∀ e : FacetEntry,
      (e.name.length ≤ 32 → e.view.label = e.name) ∧
      (32 < e.name.length → e.view.label = String.ofList (e.name.toList.take 32) ++ "...") ∧
      e.view.value = e.value ∧
      ∀ link, e.view.link = some link ↔ e.name ≠ "n/a" ∧ (∃ c ∈ e.filter.toList, isBlank c = false) ∧ link = e.filter) ∧
    ∀ v ∈ views facets, ∀ link ∈ v.links, ∀ l : Location,
      let (changed, followed) := l.replaceFilter link
      followed.filter = link ∧ followed.filterPairs = [(Location.filterKey, link)] ∧
      followed.others Location.filterKey = l.others Location.filterKey ∧ followed.path = l.path ∧
      (changed = true ↔ l.filter ≠ followed.filter) := by
  refine ⟨?shown, fun e => ⟨FacetEntry.label_of_short, FacetEntry.label_of_long, rfl, fun link =>
    FacetEntry.drillDown_eq_some⟩, ?followed⟩
  case shown =>
    have informative : isInformative = fun f : Facet => decide (∃ a ∈ f.top, ∃ b ∈ f.top, a.name ≠ b.name) := by
      funext f
      rw [Bool.eq_iff_iff, isInformative_iff, decide_eq_true_iff]
    rw [views, informative]
    rfl
  case followed =>
    intro v hv link hlink l
    obtain ⟨f, _, rfl⟩ := List.mem_map.mp hv
    obtain ⟨_, shown, linked⟩ := List.mem_filterMap.mp hlink
    obtain ⟨e, _, rfl⟩ := List.mem_map.mp shown
    have filled : link ≠ "" := FacetEntry.ne_empty_of_drillDown linked
    have own := l.filterPairs_setFilter link
    rw [if_neg filled] at own
    refine ⟨l.filter_setFilter link, own, l.others_setFilter link, l.setFilter_path link, ?_⟩
    rw [Location.filter_setFilter]
    exact bne_iff_ne

/-- A long name outside ASCII, the name for empty values, a blank filter, and two facets that say nothing. -/
def sample : List Facet :=
  [⟨"Country", [⟨"DE", "9", "Country:DE"⟩, ⟨"DE", "1", "Country:de"⟩]⟩,
    ⟨"Proxy", [⟨String.ofList (List.replicate 33 'ü'), "3", " Proxy:ü"⟩, ⟨"n/a", "2", "Proxy:\"\""⟩, ⟨"b", "1", "\t"⟩]⟩,
    ⟨"Empty", []⟩]

theorem facets_lead_to_filters_sample :
    let v : FacetView := ⟨"Proxy", [⟨String.ofList (List.replicate 32 'ü') ++ "...", "3", some " Proxy:ü"⟩,
      ⟨"n/a", "2", none⟩, ⟨"b", "1", none⟩]⟩
    views sample = [v] ∧ v ∈ views sample ∧ " Proxy:ü" ∈ v.links ∧
      (Location.crowded.replaceFilter " Proxy:ü").2.filterPairs = [(Location.filterKey, " Proxy:ü")] := by
  intro v
  obtain ⟨shown, _, follow⟩ := facets_lead_to_filters sample
  have shown : views sample = [v] := shown.trans (by decide)
  have listed : v ∈ views sample := by
    rw [shown]
    exact List.mem_singleton.mpr rfl
  have linked : " Proxy:ü" ∈ v.links := by decide
  exact ⟨shown, listed, linked, (follow v listed _ linked Location.crowded).2.1⟩

end Facet
end ProxyMonitor
