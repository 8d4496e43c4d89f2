import Turnpike.Proofs.Settlement

/-!
What invocations that share a context book, in whatever order they go on. A step moves one of them,
and books in the ledger of that invocation alone.
-/

namespace Turnpike

namespace Governance

variable {β : Type} [LoadBalancer β] {now version : Nat} {request : OutboundRequest}
  {g g' : Governance β} {candidates : List Endpoint} {asks : List Ask}

theorem Asks.books {rule : BreakerPolicy} {r : Option (Endpoint × BreakerId)}
    (h : Asks now request rule version g candidates asks r g') :
    BooksAll none (asks.map fun a => .charged (.asked a))
      (r.map fun (_, id) => { breaker := id }) := by
  induction h with
  | exhausted => exact .nil
  | granted => exact .single (.granted rfl)
  | refused _ _ _ ih => exact .cons (.free rfl rfl) ih

theorem Chooses.books {policy : ServicePolicy} {chosen : Option (Endpoint × Option BreakerId)}
    (h : Chooses now request policy g candidates asks chosen g') :
    BooksAll none (asks.map fun a => .charged (.asked a))
      ((chosen.bind (·.2)).map fun id => { breaker := id }) := by
  cases h with
  | @admitted _ _ r _ _ ha =>
    have := ha.books
    rcases r with _ | ⟨e, id⟩ <;> exact this
  | picked => exact .nil

def owed : Except RouteError (Endpoint × Option BreakerId) → Option Pending
  | .ok (_, some id) => some { breaker := id }
  | _ => none

theorem Selects.books {i : Invocation} {charges : List Charge}
    {answer : Except RouteError (Endpoint × Option BreakerId)}
    (h : Selects now i g candidates charges answer g') :
    BooksAll none (charges.map .charged) (owed answer) := by
  cases h with
  | inaccessible | ungoverned | mislocated => exact .nil
  | circuitOpen _ hc => simpa [owed, Function.comp_def] using hc.books
  | @unlimited _ _ _ _ admission _ _ hc =>
    cases admission <;> simpa [owed, Function.comp_def] using hc.books
  | @permitted _ _ _ _ admission _ _ _ _ hc =>
    rw [List.map_append, List.map_map]
    apply BooksAll.append_iff.2
    refine ⟨_, hc.books, ?_⟩
    cases admission with
    | none => exact .single (.free rfl rfl)
    | some id => exact .single (.stays (.quiet rfl rfl rfl))
  | @limited _ _ _ _ admission _ _ _ _ hc =>
    rw [List.map_append, List.map_map]
    apply BooksAll.append_iff.2
    refine ⟨_, hc.books, ?_⟩
    cases admission with
    | none => exact .single (.free rfl rfl)
    | some id => exact .cons (.stays (.quiet rfl rfl rfl)) (.single (.settled rfl))

end Governance

theorem Question.Settles.holds {q : Question} {l : Option Pending} {i : Invocation}
    (h : q.Settles l) (hq : q.waiting? = some i) : i.Holds l := by
  cases q with
  | cluster call => cases call <;> cases hq <;> exact h
  | context | tell => cases hq
  | sleep =>
    cases hq
    exact h

theorem Question.Settles.books {q : Question} {l : Option Pending} (h : q.Settles l)
    (a : q.Answer) (hq : ∀ call, q ≠ .context call) :
    Books l (.answered ⟨q, a⟩) (Event.ledger ⟨q, a⟩ l) := by
  cases q with
  | cluster call =>
    cases call with
    | invoke i e =>
      cases l with
      | none => exact .free rfl rfl
      | some p => exact .stays (.ended rfl (h.undecided p rfl))
    | _ => exact .quiet rfl rfl rfl
  | context call => exact absurd rfl (hq call)
  | tell signal =>
    cases signal with
    | report b r =>
      obtain ⟨p, rfl, rfl, rfl⟩ := h
      exact .settled rfl
    | _ => exact .quiet rfl rfl rfl
  | sleep => exact .quiet rfl rfl rfl

theorem Governance.Answers.books {β : Type} [LoadBalancer β] {g g' : Governance β} {now : Nat}
    {call : ContextCall} {charges : List Charge} {a : call.Answer} {l : Option Pending}
    (h : g.Answers now call charges a g') (hl : (Question.context call).Settles l) :
    BooksAll l (charges.map .charged ++ [.answered (.context call a)])
      (Event.ledger (.context call a) l) := by
  cases h with
  | readiness | routingMode => exact .single (.quiet rfl rfl rfl)
  | @select _ _ _ answer _ hs =>
    obtain rfl := hl
    apply BooksAll.append_iff.2
    refine ⟨_, hs.books, .single ?_⟩
    rcases answer with _ | ⟨e, _ | b⟩ <;> exact .quiet rfl rfl rfl

def Flight.Owes : Flight → Option Pending → Prop
  | .absent, l => l = none
  | .held i, l => i.Rests l
  | .running d, l => d.Settles (fun a => a.2.Rests) l

namespace Fleet

variable {β : Type} [LoadBalancer β] {g g' : Governance β} {f f' : Flight} {es : List Entry}
  {l : Option Pending}

theorem Moves.books (h : Moves g f es f' g') (hf : f.Owes l) :
    ∃ l', BooksAll l es l' ∧ f'.Owes l' := by
  cases h with
  | enter hi =>
    obtain rfl := hf
    exact ⟨none, .nil, Invocation.rests_none hi⟩
  | call he => exact ⟨l, .nil, he.settles_execute hf⟩
  | cluster a => exact ⟨_, .single (hf.1.books a (by simp)), hf.2 a⟩
  | context _ ha => exact ⟨_, ha.books hf.1, hf.2 _⟩
  | tell => exact ⟨_, .single (hf.1.books () (by simp)), hf.2 ()⟩
  | wake => exact ⟨_, .single (hf.1.books () (by simp)), hf.2 ()⟩
  | finish => exact ⟨l, .nil, hf⟩
  | abandon hq =>
    have hi := hf.1.holds hq
    cases l with
    | none => exact ⟨none, .single (.free rfl rfl), Invocation.rests_none hi.admissions⟩
    | some p =>
      refine ⟨some { p with left := true }, .single (.stays .left), ⟨hi.admissions, ?_⟩, ?_⟩
      · rintro _ ⟨⟩
        exact hi.undecided p rfl
      · rintro _ ⟨⟩
        rfl
  | @drop i =>
    refine ⟨none, ?_, rfl⟩
    rw [i.fst_drop, hf.admissions]
    cases l with
    | none => exact .nil
    | some p =>
      apply BooksAll.single
      apply Books.settled
      simp [Entry.report?, Entry.told?, Pending.due, hf.undecided p rfl]

theorem Step.books {s s' : Fleet β} {es : List (Nat × Entry)} (h : Step s es s') {n : Nat}
    (hl : (s.flights n).Owes l) :
    ∃ l', BooksAll l (Entry.ofOwner n es) l' ∧ (s'.flights n).Owes l' := by
  cases h with
  | @move m es f g' hm =>
    by_cases hmn : m = n
    · subst hmn
      obtain ⟨l', hb, ho⟩ := hm.books hl
      exact ⟨l', by simpa using hb, by simpa using ho⟩
    · -- The entries are those of another invocation, which is all that has moved.
      refine ⟨l, ?_, ?_⟩
      · rw [Entry.ofOwner_map_of_ne hmn]
        exact .nil
      · rw [flights_put_of_ne (Ne.symm hmn)]
        exact hl
  | readiness | sweepLimiters | sweepBreakers => exact ⟨l, .nil, hl⟩

theorem Reaches.books {log : List (Nat × Entry)} {s : Fleet β} (h : Reaches g log s) (n : Nat) :
    ∃ l, BooksAll none (Entry.ofOwner n log) l ∧ (s.flights n).Owes l := by
  induction h with
  | start => exact ⟨none, .nil, rfl⟩
  | step _ hstep ih =>
    obtain ⟨l, hlog, hl⟩ := ih
    obtain ⟨l', hes, hl'⟩ := hstep.books hl
    refine ⟨l', ?_, hl'⟩
    rw [Entry.ofOwner_append]
    exact BooksAll.append_iff.2 ⟨l, hlog, hes⟩

end Fleet

end Turnpike
