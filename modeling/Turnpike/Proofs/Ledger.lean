import Turnpike.Proofs.BreakerCycle
import Turnpike.Proofs.Fleet

/-!
Every admission is settled once. A ledger follows what an invocation owes to a breaker: an
admission is entered by a grant and taken out by the report that is due. The invariant is that the
ledger of every invocation goes on without a breach, whatever it is answered.
-/

namespace Turnpike

def dispatchReport : Except Failure Response → Report
  | .ok (.success _) => .success
  | .ok (.failure f) | .error f =>
    match f.kind with
    | .dispatch _ | .application => .error
    | _ => .release

def Charge.told? : Charge → Option (BreakerId × Breaker.Event)
  | .asked ask => some (ask.breaker, ⟨.tryAcquire, ask.granted⟩)
  | .limited .. => none
  | .released breaker => some (breaker, ⟨.settle .release, ()⟩)

namespace Entry

/-- The breaker that an entry is about, and what that breaker was asked or told. -/
def told? : Entry → Option (BreakerId × Breaker.Event)
  | .charged charge => charge.told?
  | .answered ⟨.tell (.report breaker report), _⟩ => some (breaker, ⟨.settle report, ()⟩)
  | _ => none

def grant? (e : Entry) : Option BreakerId :=
  match e.told? with
  | some (breaker, ⟨.tryAcquire, true⟩) => some breaker
  | _ => none

def report? (e : Entry) : Option (BreakerId × Report) :=
  match e.told? with
  | some (breaker, ⟨.settle report, _⟩) => some (breaker, report)
  | _ => none

def outcome? : Entry → Option (Except Failure Response)
  | .answered ⟨.cluster (.invoke _ _), answer⟩ => some answer
  | _ => none

def isAbandoned : Entry → Bool
  | .abandoned => true
  | _ => false

variable {e : Entry} {b : BreakerId} {r : Report}

theorem grant?_eq_some_iff : e.grant? = some b ↔ e.told? = some (b, ⟨.tryAcquire, true⟩) := by
  unfold grant?
  split
  · simp_all
  · rename_i hne
    simpa using hne b

theorem report?_eq_some_iff : e.report? = some (b, r) ↔ e.told? = some (b, ⟨.settle r, ()⟩) := by
  unfold report?
  split
  · simp_all
  · rename_i hne
    simpa using hne b r ()

end Entry

structure Pending where
  breaker : BreakerId
  outcome : Option (Except Failure Response) := none
  left : Bool := false

def Pending.due (p : Pending) : Report := p.outcome.elim .release dispatchReport

inductive Stays : Pending → Entry → Pending → Prop
  | ended {p : Pending} {e : Entry} {a : Except Failure Response} : e.outcome? = some a →
    p.outcome = none →
    Stays p e { p with outcome := some a }
  | left {p : Pending} : Stays p .abandoned { p with left := true }
  | quiet {p : Pending} {e : Entry} : e.told? = none → e.outcome? = none →
    e.isAbandoned = false →
    Stays p e p

inductive StaysAll : Pending → List Entry → Pending → Prop
  | nil {p : Pending} : StaysAll p [] p
  | cons {p p' p'' : Pending} {e : Entry} {es : List Entry} :
    Stays p e p' → StaysAll p' es p'' → StaysAll p (e :: es) p''

/-- What an entry makes of the ledger. Nothing else may happen. -/
inductive Books : Option Pending → Entry → Option Pending → Prop
  | granted {e : Entry} {b : BreakerId} : e.grant? = some b → Books none e (some { breaker := b })
  | stays {p p' : Pending} {e : Entry} : Stays p e p' → Books (some p) e (some p')
  | settled {p : Pending} {e : Entry} : e.report? = some (p.breaker, p.due) →
    Books (some p) e none
  | free {e : Entry} : e.grant? = none → e.report? = none → Books none e none

inductive BooksAll : Option Pending → List Entry → Option Pending → Prop
  | nil {l : Option Pending} : BooksAll l [] l
  | cons {l l' l'' : Option Pending} {e : Entry} {es : List Entry} :
    Books l e l' → BooksAll l' es l'' → BooksAll l (e :: es) l''

section Ledger

variable {p p' : Pending} {l l' l'' : Option Pending} {e : Entry} {es es' : List Entry}

theorem Stays.silent (h : Stays p e p') : e.told? = none := by
  cases h with
  | ended ha _ =>
    unfold Entry.outcome? at ha
    split at ha
    · rfl
    · cases ha
  | left => rfl
  | quiet ht => exact ht

theorem Books.quiet (ht : e.told? = none) (ho : e.outcome? = none) (ha : e.isAbandoned = false) :
    Books l e l := by
  cases l with
  | none => exact .free (by simp [Entry.grant?, ht]) (by simp [Entry.report?, ht])
  | some p => exact .stays (.quiet ht ho ha)

theorem StaysAll.silent (h : StaysAll p es p') : ∀ e ∈ es, e.told? = none := by
  induction h with
  | nil => simp
  | cons hs _ ih => simpa using ⟨hs.silent, ih⟩

theorem StaysAll.breaker_eq (h : StaysAll p es p') : p'.breaker = p.breaker := by
  induction h with
  | nil => rfl
  | cons hs _ ih =>
    rw [ih]
    cases hs <;> rfl

theorem StaysAll.outcomes (h : StaysAll p es p') :
    p.outcome.toList ++ es.filterMap Entry.outcome? = p'.outcome.toList := by
  induction h with
  | nil => simp
  | cons hs _ ih =>
    rw [← ih]
    cases hs with
    | ended ha hnone => simp [ha, hnone]
    | left => rfl
    | quiet _ ho => simp [ho]

theorem StaysAll.abandoned_mem (h : StaysAll p es p') (hleft : p'.left = true) :
    p.left = true ∨ .abandoned ∈ es := by
  induction h with
  | nil => exact .inl hleft
  | @cons p p' _ e es hs _ ih =>
    have hstep : p'.left = true ∨ .abandoned ∈ e :: es :=
      (ih hleft).imp_right (List.mem_cons_of_mem _)
    cases hs with
    | ended | quiet => exact hstep
    | left => exact .inr (List.mem_cons_self ..)

theorem Books.of_grant {b : BreakerId} (h : Books l e l') (hb : e.grant? = some b) :
    l' = some { breaker := b } := by
  have ht := Entry.grant?_eq_some_iff.1 hb
  cases h with
  | granted hg => rw [Option.some.inj (hg.symm.trans hb)]
  | stays hs => simp [hs.silent] at ht
  | settled hr => simp [Entry.report?, ht] at hr
  | free hg => simp [hg] at hb

theorem Books.of_report {b : BreakerId} {r : Report} (h : Books l e l')
    (hr : e.report? = some (b, r)) : ∃ p, l = some p ∧ p.breaker = b ∧ p.due = r := by
  have ht := Entry.report?_eq_some_iff.1 hr
  cases h with
  | granted hg => simp [Entry.grant?, ht] at hg
  | stays hs => simp [hs.silent] at ht
  | @settled p _ hr' =>
    obtain ⟨hb, hr⟩ := Prod.mk.inj (Option.some.inj (hr'.symm.trans hr))
    exact ⟨p, rfl, hb, hr⟩
  | free _ hr' => simp [hr'] at hr

namespace BooksAll

theorem single (h : Books l e l') : BooksAll l [e] l' := .cons h .nil

theorem append_iff :
    BooksAll l (es ++ es') l'' ↔ ∃ l', BooksAll l es l' ∧ BooksAll l' es' l'' := by
  induction es generalizing l with
  | nil =>
    constructor
    · intro h
      exact ⟨l, .nil, h⟩
    · rintro ⟨_, h, h'⟩
      cases h
      exact h'
  | cons e es ih =>
    constructor
    · intro h
      cases h with
      | cons hb h =>
        obtain ⟨l', h₁, h₂⟩ := ih.1 h
        exact ⟨l', .cons hb h₁, h₂⟩
    · rintro ⟨l', h₁, h₂⟩
      cases h₁ with
      | cons hb h₁ => exact .cons hb (ih.2 ⟨l', h₁, h₂⟩)

theorem next_report (h : BooksAll (some p) es l) :
    (∃ mid e rest p', es = mid ++ e :: rest ∧ StaysAll p mid p' ∧
      e.report? = some (p'.breaker, p'.due)) ∨ ∃ p', l = some p' ∧ StaysAll p es p' := by
  induction es generalizing p with
  | nil =>
    cases h
    exact .inr ⟨p, rfl, .nil⟩
  | cons e es ih =>
    cases h with
    | cons hb h =>
      cases hb with
      | settled hr => exact .inl ⟨[], e, es, p, rfl, .nil, hr⟩
      | stays hs =>
        rcases ih h with ⟨mid, x, rest, p', rfl, hmid, hx⟩ | ⟨p', rfl, hes⟩
        · exact .inl ⟨e :: mid, x, rest, p', rfl, .cons hs hmid, hx⟩
        · exact .inr ⟨p', rfl, .cons hs hes⟩

theorem last_grant (h : BooksAll l es (some p)) :
    (∃ pre e mid b, es = pre ++ e :: mid ∧ e.grant? = some b ∧
      StaysAll { breaker := b } mid p) ∨ ∃ p', l = some p' ∧ StaysAll p' es p := by
  induction es generalizing l with
  | nil =>
    cases h
    exact .inr ⟨p, rfl, .nil⟩
  | cons e es ih =>
    cases h with
    | cons hb h =>
      rcases ih h with ⟨pre, x, mid, b, rfl, hx, hmid⟩ | ⟨p', rfl, hes⟩
      · exact .inl ⟨e :: pre, x, mid, b, rfl, hx, hmid⟩
      · cases hb with
        | granted hg => exact .inl ⟨[], e, es, _, rfl, hg, hes⟩
        | stays hs => exact .inr ⟨_, rfl, .cons hs hes⟩

end BooksAll

end Ledger

end Turnpike
