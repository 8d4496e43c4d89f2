import Turnpike.Governance

namespace Turnpike

variable {wanted : Option String} {label : Endpoint → Option String} {fallback : Bool}
  {rules : RoutingRules} {candidates located : List Endpoint}

theorem narrow_some_eq {value : String} :
    narrow (some value) label fallback candidates =
      if candidates.filter (label · = some value) ≠ [] then
        some (candidates.filter (label · = some value))
      else if fallback then some candidates else none := by
  simp [narrow]

theorem narrow_cases (h : narrow wanted label fallback candidates = some located) :
    located = candidates ∨ ∃ value, wanted = some value ∧
      candidates.filter (label · = some value) ≠ [] ∧
      located = candidates.filter (label · = some value) := by
  cases wanted with
  | none =>
    cases h
    exact .inl rfl
  | some value =>
    rw [narrow_some_eq] at h
    split at h
    · rename_i hne
      cases h
      exact .inr ⟨value, rfl, hne, rfl⟩
    · split at h <;> cases h
      exact .inl rfl

theorem sublist_of_narrow (h : narrow wanted label fallback candidates = some located) :
    located.Sublist candidates := by
  rcases narrow_cases h with rfl | ⟨value, -, -, rfl⟩
  · exact List.Sublist.refl _
  · exact List.filter_sublist

theorem subset_of_narrow (h : narrow wanted label fallback candidates = some located) :
    located ⊆ candidates :=
  (sublist_of_narrow h).subset

theorem ne_nil_of_narrow (h : narrow wanted label fallback candidates = some located)
    (hne : candidates ≠ []) : located ≠ [] := by
  rcases narrow_cases h with rfl | ⟨value, -, hm, rfl⟩
  · exact hne
  · exact hm

theorem RoutingRules.sublist_of_locate (h : rules.locate candidates = some located) :
    located.Sublist candidates := by
  simp only [locate, Option.bind_eq_bind, Option.bind_eq_some_iff] at h
  obtain ⟨inUnit, hu, inCell, hc, hl⟩ := h
  exact ((sublist_of_narrow hl).trans (sublist_of_narrow hc)).trans (sublist_of_narrow hu)

theorem RoutingRules.subset_of_locate (h : rules.locate candidates = some located) :
    located ⊆ candidates :=
  (sublist_of_locate h).subset

theorem RoutingRules.ne_nil_of_locate (h : rules.locate candidates = some located)
    (hne : candidates ≠ []) : located ≠ [] := by
  simp only [locate, Option.bind_eq_bind, Option.bind_eq_some_iff] at h
  obtain ⟨inUnit, hu, inCell, hc, hl⟩ := h
  exact ne_nil_of_narrow hl (ne_nil_of_narrow hc (ne_nil_of_narrow hu hne))

def RoutingRules.matched (r : RoutingRules) (e : Endpoint) : Bool :=
  r.unit.all (e.unit? = some ·) && r.cell.all (e.cell? = some ·) && r.lane.all (e.lane? = some ·)

theorem narrow_strict (hne : candidates ≠ []) : narrow wanted label false candidates =
    if candidates.filter (fun e => wanted.all (label e = some ·)) = [] then none
    else some (candidates.filter fun e => wanted.all (label e = some ·)) := by
  cases wanted with
  | none =>
    have hall : candidates.filter (fun _ => true) = candidates := List.filter_eq_self.2 (by simp)
    simp only [narrow, Option.all_none, hall]
    rw [if_neg hne]
  | some value =>
    rw [narrow_some_eq]
    by_cases h : candidates.filter (label · = some value) = [] <;> simp [h]

theorem exists_narrow_fallback (wanted : Option String) (label : Endpoint → Option String)
    (candidates : List Endpoint) :
    ∃ located, narrow wanted label true candidates = some located := by
  cases wanted with
  | none => exact ⟨candidates, rfl⟩
  | some value =>
    rw [narrow_some_eq]
    split
    · exact ⟨_, rfl⟩
    · exact ⟨_, rfl⟩

theorem RoutingRules.filter_matched : candidates.filter rules.matched =
    ((candidates.filter fun e => rules.unit.all (e.unit? = some ·)).filter fun e =>
      rules.cell.all (e.cell? = some ·)).filter fun e => rules.lane.all (e.lane? = some ·) := by
  simp only [List.filter_filter]
  congr 1
  funext e
  simp only [matched]
  ac_rfl

theorem RoutingRules.locate_strict (hr : rules.fallback = false) (hne : candidates ≠ []) :
    rules.locate candidates =
      if candidates.filter rules.matched = [] then none
      else some (candidates.filter rules.matched) := by
  rw [filter_matched, locate, hr, narrow_strict hne]
  split
  · simp [*]
  · rename_i hu
    rw [Option.bind_eq_bind, Option.bind_some, narrow_strict hu]
    split
    · simp [*]
    · rename_i hc
      rw [Option.bind_some, narrow_strict hc]

theorem RoutingRules.exists_locate_fallback (hr : rules.fallback = true)
    (candidates : List Endpoint) : ∃ located, rules.locate candidates = some located := by
  obtain ⟨inUnit, hu⟩ := exists_narrow_fallback rules.unit Endpoint.unit? candidates
  obtain ⟨inCell, hc⟩ := exists_narrow_fallback rules.cell Endpoint.cell? inUnit
  obtain ⟨inLane, hl⟩ := exists_narrow_fallback rules.lane Endpoint.lane? inCell
  exact ⟨inLane, by simp [locate, hr, hu, hc, hl]⟩

end Turnpike
