import Turnpike.Proofs.Location

namespace Turnpike

inductive Preferred (label : Endpoint → Option String) :
    Option String → List Endpoint → List Endpoint → Prop
  | unset {es : List Endpoint} : Preferred label none es es
  | kept {value : String} {es : List Endpoint} (h : ∃ e ∈ es, label e = some value) :
    Preferred label (some value) es (es.filter (label · = some value))
  | dropped {value : String} {es : List Endpoint} (h : ∀ e ∈ es, label e ≠ some value) :
    Preferred label (some value) es es

/-- The preferences are taken up in turn: the unit, then the cell, then the lane. -/
def RoutingRules.Prefers (r : RoutingRules) (candidates located : List Endpoint) : Prop :=
  ∃ inUnit inCell, Preferred Endpoint.unit? r.unit candidates inUnit ∧
    Preferred Endpoint.cell? r.cell inUnit inCell ∧ Preferred Endpoint.lane? r.lane inCell located

variable {wanted : Option String} {label : Endpoint → Option String} {fallback : Bool}
  {rules : RoutingRules} {candidates located : List Endpoint}

theorem narrow_fallback_iff :
    narrow wanted label true candidates = some located ↔
      Preferred label wanted candidates located := by
  cases wanted with
  | none =>
    constructor
    · rintro ⟨⟩
      exact .unset
    · rintro ⟨⟩
      rfl
  | some value =>
    rw [narrow_some_eq]
    by_cases h : ∃ e ∈ candidates, label e = some value
    · have hne : candidates.filter (label · = some value) ≠ [] := by
        simpa [List.filter_eq_nil_iff] using h
      rw [if_pos hne]
      constructor
      · rintro ⟨⟩
        exact .kept h
      · rintro (_ | _ | hnone)
        · rfl
        · obtain ⟨e, he, heq⟩ := h
          exact absurd heq (hnone e he)
    · have hnone : ∀ e ∈ candidates, label e ≠ some value := by simpa using h
      have hnil : ¬candidates.filter (label · = some value) ≠ [] := by
        simpa [List.filter_eq_nil_iff] using h
      rw [if_neg hnil, if_pos rfl]
      constructor
      · rintro ⟨⟩
        exact .dropped hnone
      · rintro (_ | hsome | _)
        · exact absurd hsome h
        · rfl

theorem narrow_eq_of_exists (h : ∃ e ∈ candidates, wanted.all (label e = some ·)) :
    narrow wanted label fallback candidates =
      some (candidates.filter fun e => wanted.all (label e = some ·)) := by
  cases wanted with
  | none => exact congrArg some (List.filter_eq_self.2 (by simp)).symm
  | some value =>
    have hne : candidates.filter (label · = some value) ≠ [] := by
      simpa [List.filter_eq_nil_iff] using h
    rw [narrow_some_eq, if_pos hne]
    rfl

theorem label_of_narrow {value : String}
    (h : narrow (some value) label fallback candidates = some located)
    (hsome : ∃ e ∈ candidates, label e = some value) : ∀ e ∈ located, label e = some value := by
  rw [narrow_eq_of_exists (by simpa using hsome)] at h
  cases h
  simp

namespace RoutingRules

theorem locate_fallback_iff (hr : rules.fallback = true) :
    rules.locate candidates = some located ↔ rules.Prefers candidates located := by
  simp only [locate, hr, Option.bind_eq_bind, Option.bind_eq_some_iff, narrow_fallback_iff, Prefers,
    exists_and_left]

theorem locate_eq_of_exists (h : ∃ e ∈ candidates, rules.matched e) :
    rules.locate candidates = some (candidates.filter rules.matched) := by
  obtain ⟨e, he, hmatched⟩ := h
  simp only [matched, Bool.and_eq_true] at hmatched
  obtain ⟨⟨hu, hc⟩, hl⟩ := hmatched
  have hinUnit : e ∈ candidates.filter fun e => rules.unit.all (e.unit? = some ·) :=
    List.mem_filter.2 ⟨he, hu⟩
  have hinCell : e ∈ (candidates.filter fun e => rules.unit.all (e.unit? = some ·)).filter fun e =>
      rules.cell.all (e.cell? = some ·) :=
    List.mem_filter.2 ⟨hinUnit, hc⟩
  rw [locate, narrow_eq_of_exists ⟨e, he, hu⟩, Option.bind_eq_bind, Option.bind_some,
    narrow_eq_of_exists ⟨e, hinUnit, hc⟩, Option.bind_some, narrow_eq_of_exists ⟨e, hinCell, hl⟩,
    filter_matched]

theorem locate_strict_iff (hr : rules.fallback = false) (hne : candidates ≠ []) :
    rules.locate candidates = some located ↔
      located = candidates.filter rules.matched ∧ located ≠ [] := by
  rw [locate_strict hr hne]
  grind

theorem locate_strict_eq_none_iff (hr : rules.fallback = false) (hne : candidates ≠ []) :
    rules.locate candidates = none ↔ ∀ e ∈ candidates, rules.matched e = false := by
  rw [locate_strict hr hne]
  simp [List.filter_eq_nil_iff]

theorem unit_of_locate {value : String} (h : rules.locate candidates = some located)
    (hunit : rules.unit = some value) (hsome : ∃ e ∈ candidates, e.unit? = some value) :
    ∀ e ∈ located, e.unit? = some value := by
  simp only [locate, hunit, Option.bind_eq_bind, Option.bind_eq_some_iff] at h
  obtain ⟨inUnit, hu, inCell, hc, hl⟩ := h
  intro e he
  exact label_of_narrow hu hsome e (subset_of_narrow hc (subset_of_narrow hl he))

/--
Whatever the rules leave is a part of the candidates, in their order, and not empty. Strict rules
leave the candidates that carry every wanted label, and nothing if there are none. Rules that fall
back always leave some, those to which the preferences lead in turn: what strict rules leave, if
that is anything, and endpoints of the unit alone, if there is a candidate of it.
-/
theorem locate_narrows_exactly (rules : RoutingRules) {candidates : List Endpoint}
    (hne : candidates ≠ []) :
    (∀ located, rules.locate candidates = some located →
      located.Sublist candidates ∧ located ≠ []) ∧
    (rules.fallback = false →
      (∀ located, rules.locate candidates = some located ↔
        located = candidates.filter rules.matched ∧ located ≠ []) ∧
      (rules.locate candidates = none ↔ ∀ e ∈ candidates, rules.matched e = false)) ∧
    (rules.fallback = true →
      (∃ located, rules.locate candidates = some located) ∧
      (∀ located, rules.locate candidates = some located ↔ rules.Prefers candidates located) ∧
      ((∃ e ∈ candidates, rules.matched e) →
        rules.locate candidates = { rules with fallback := false }.locate candidates) ∧
      ∀ located value, rules.locate candidates = some located → rules.unit = some value →
        (∃ e ∈ candidates, e.unit? = some value) → ∀ e ∈ located, e.unit? = some value) := by
  refine ⟨fun located h => ⟨sublist_of_locate h, ne_nil_of_locate h hne⟩, fun hr => ?_,
    fun hr => ?_⟩
  · exact ⟨fun located => locate_strict_iff hr hne, locate_strict_eq_none_iff hr hne⟩
  · refine ⟨exists_locate_fallback hr candidates, fun located => locate_fallback_iff hr,
      fun hsome => ?_, fun located value => unit_of_locate⟩
    have hstrict : ∃ e ∈ candidates, ({ rules with fallback := false } : RoutingRules).matched e :=
      hsome
    rw [locate_eq_of_exists hsome, locate_eq_of_exists hstrict]
    rfl

theorem cell_dropped_between_unit_and_lane :
    let endpoint (id unit lane : String) : Endpoint :=
      { id, host := "h", port := 1
        labels := Dict.ofList [(Label.unit, unit), (Label.cell, "c1"), (Label.lane, lane)] }
    let a := endpoint "a" "u1" "l1"
    let b := endpoint "b" "u2" "l2"
    let c := endpoint "c" "u1" "l2"
    let rules : RoutingRules := { unit := some "u1", cell := some "c2", lane := some "l2" }
    [a, b, c] ≠ [] ∧ rules.locate [a, b, c] = some [c] ∧ rules.Prefers [a, b, c] [c] ∧
      { rules with fallback := false }.locate [a, b, c] = none := by
  intro endpoint a b c rules
  let strict : RoutingRules := { rules with fallback := false }
  have hne : [a, b, c] ≠ [] := List.cons_ne_nil a [b, c]
  have hlocate : rules.locate [a, b, c] = some [c] := by decide
  have hnone : ∀ e ∈ [a, b, c], strict.matched e = false := by decide
  exact ⟨hne, hlocate, (((locate_narrows_exactly rules hne).2.2 rfl).2.1 _).1 hlocate,
    (((locate_narrows_exactly strict hne).2.1 rfl).2).2 hnone⟩

end RoutingRules

end Turnpike
