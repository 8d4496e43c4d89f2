import Turnpike.Invocation.Dialogue

/-!
Dialogues that take turns. An answer may take time; a dialogue that waits for one is a task of its
pool, and the other tasks go on meanwhile. Which of them goes on is up to whoever runs the pool.

However the turns are given, a pool comes to an end: `Pool.shrinks_wellFounded`.
-/

namespace Turnpike

structure World (σ : Type) where
  delay : (q : Question) → σ → Nat
  answer : (q : Question) → Nat → σ → q.Answer × σ

structure Task (α : Type) where
  rest : Dialogue α
  due : Nat
  /-- Whether the time that its first answer takes is over by then. -/
  waited : Bool

variable {σ α : Type}

namespace Dialogue

def toPause (w : World σ) (now : Nat) (waited : Bool) : Dialogue α → σ → (α ⊕ Task α) × σ
  | .done a, s => (.inl a, s)
  | .ask q next, s =>
    if waited ∨ w.delay q s = 0 then
      let (a, s) := w.answer q now s
      (next a).toPause w now false s
    else (.inr ⟨.ask q next, now + w.delay q s, true⟩, s)

inductive Follows : Dialogue α → Dialogue α → Prop
  | answer (q : Question) (next : q.Answer → Dialogue α) (a : q.Answer) :
    Follows (next a) (.ask q next)

theorem Follows.wellFounded : WellFounded (Follows (α := α)) := by
  refine ⟨fun d => ?_⟩
  induction d with
  | done a => exact ⟨_, fun _ h => nomatch h⟩
  | ask q next ih => exact ⟨_, fun _ h => by cases h with | answer _ _ a => exact ih a⟩

theorem follows_of_toPause {w : World σ} {now : Nat} {waited : Bool} {d : Dialogue α} {s s' : σ}
    {t : Task α} (h : d.toPause w now waited s = (.inr t, s')) :
    Relation.TransGen Follows t.rest d ∨ (t.rest = d ∧ waited = false ∧ t.waited = true) := by
  induction d generalizing waited s with
  | done a => cases h
  | ask q next ih =>
    unfold toPause at h
    split at h
    · rcases ih _ h with h | ⟨h, -, -⟩
      · exact .inl (.tail h (.answer q next _))
      · exact .inl (.single (h ▸ .answer q next _))
    · rename_i hw
      cases h
      exact .inr ⟨rfl, by simp_all, rfl⟩

end Dialogue

namespace Task

def fresh (d : Dialogue α) (now : Nat) : Task α := ⟨d, now, false⟩

def resume (t : Task α) (w : World σ) (now : Nat) (s : σ) : (α ⊕ Task α) × σ :=
  t.rest.toPause w now t.waited s

def Advances (t' t : Task α) : Prop :=
  Relation.TransGen Dialogue.Follows t'.rest t.rest ∨
    (t'.rest = t.rest ∧ t.waited = false ∧ t'.waited = true)

theorem advances_of_resume {t t' : Task α} {w : World σ} {now : Nat} {s s' : σ}
    (h : t.resume w now s = (.inr t', s')) : Advances t' t :=
  Dialogue.follows_of_toPause h

theorem Advances.wellFounded : WellFounded (Advances (α := α)) := by
  refine Subrelation.wf (fun {t' t} h => ?_) <| InvImage.wf (fun t : Task α => (t.rest, !t.waited))
    (Prod.lex ⟨_, Dialogue.Follows.wellFounded.transGen⟩ (measure Bool.toNat)).wf
  rcases h with h | ⟨h, h₁, h₂⟩
  · exact .left _ _ h
  · simp only [InvImage, h, h₁, h₂]
    exact .right _ (by decide : (false : Bool).toNat < true.toNat)

end Task

namespace Pool

/-- One task of a pool is over, or has advanced. The order of the tasks does not matter. -/
def Shrinks (ts' ts : List (Task α)) : Prop :=
  ∃ t rest, ts.Perm (t :: rest) ∧
    (ts'.Perm rest ∨ ∃ t', t'.Advances t ∧ ts'.Perm (t' :: rest))

theorem acc_of_perm {ts us : List (Task α)} (h : Acc Shrinks ts) (p : us.Perm ts) :
    Acc Shrinks us :=
  ⟨_, fun _ ⟨t, rest, p', h'⟩ => h.inv ⟨t, rest, p.symm.trans p', h'⟩⟩

theorem perm_cons_cases {t u : Task α} {ts rest : List (Task α)}
    (p : (t :: ts).Perm (u :: rest)) :
    (t = u ∧ ts.Perm rest) ∨ ∃ us, ts.Perm (u :: us) ∧ rest.Perm (t :: us) := by
  rcases List.mem_cons.1 (p.symm.subset (List.mem_cons_self ..)) with rfl | hu
  · exact .inl ⟨rfl, p.cons_inv⟩
  · obtain ⟨as, bs, rfl⟩ := List.append_of_mem hu
    refine .inr ⟨as ++ bs, List.perm_middle, .cons_inv (a := u) (p.symm.trans ?_)⟩
    exact (List.Perm.cons t List.perm_middle).trans (.swap ..)

theorem acc_cons (t : Task α) : ∀ {ts : List (Task α)}, Acc Shrinks ts → Acc Shrinks (t :: ts) := by
  induction t using Task.Advances.wellFounded.induction with
  | _ t iht =>
    intro ts h
    induction h with
    | intro ts hts ih =>
      refine ⟨_, fun us ⟨u, rest, p, hu⟩ => ?_⟩
      rcases perm_cons_cases p with ⟨rfl, q⟩ | ⟨vs, q, q'⟩
      · rcases hu with hu | ⟨t', ht', hu⟩
        · exact acc_of_perm ⟨_, hts⟩ (hu.trans q.symm)
        · exact acc_of_perm (iht t' ht' ⟨_, hts⟩) (hu.trans (q.symm.cons t'))
      · rcases hu with hu | ⟨u', hu', hu⟩
        · exact acc_of_perm (ih vs ⟨u, vs, q, .inl (.refl _)⟩) (hu.trans q')
        · exact acc_of_perm (ih (u' :: vs) ⟨u, vs, q, .inr ⟨u', hu', .refl _⟩⟩)
            (hu.trans ((q'.cons u').trans (.swap ..)))

theorem shrinks_wellFounded : WellFounded (Shrinks (α := α)) := by
  refine ⟨fun ts => ?_⟩
  induction ts with
  | nil => exact ⟨_, fun _ ⟨_, _, p, _⟩ => absurd p.length_eq (by simp)⟩
  | cons t ts ih => exact acc_cons t ih

end Pool

structure Pool (σ α : Type) where
  state : σ
  now : Nat := 0
  tasks : List (Task α) := []
  results : Array α := #[]

/-- Who goes next, by the times at which the tasks are due; counted around the pool. -/
abbrev Turn := List Nat → Nat

/-- The task that is due first, and of several the one that has waited longest. -/
def Turn.earliest : Turn := fun dues => dues.min?.elim 0 (dues.idxOf ·)

namespace Pool

def add (p : Pool σ α) (d : Dialogue α) : Pool σ α :=
  { p with tasks := p.tasks ++ [.fresh d p.now] }

def resume (w : World σ) (p : Pool σ α) (k : Fin p.tasks.length) : Pool σ α :=
  let t := p.tasks[k]
  let rest := p.tasks.eraseIdx k
  let now := max p.now t.due
  match t.resume w now p.state with
  | (.inl a, state) => { state, now, tasks := rest, results := p.results.push a }
  | (.inr t', state) => { p with state, now, tasks := rest ++ [t'] }

theorem perm_eraseIdx (ts : List (Task α)) (k : Fin ts.length) :
    ts.Perm (ts[k] :: ts.eraseIdx k) := by
  conv => lhs; rw [← List.take_append_drop k ts]
  rw [List.eraseIdx_eq_take_drop_succ, List.drop_eq_getElem_cons k.isLt]
  exact List.perm_middle

theorem shrinks_resume (w : World σ) (p : Pool σ α) (k : Fin p.tasks.length) :
    Shrinks (p.resume w k).tasks p.tasks := by
  refine ⟨_, _, perm_eraseIdx p.tasks k, ?_⟩
  unfold resume
  dsimp only
  split
  · exact .inl (.refl _)
  · rename_i t' state h
    exact .inr ⟨t', Task.advances_of_resume h, List.perm_append_comm⟩

def place (turn : Turn) (p : Pool σ α) (h : p.tasks ≠ []) : Fin p.tasks.length :=
  ⟨turn (p.tasks.map (·.due)) % p.tasks.length,
    Nat.mod_lt _ (List.length_pos_iff.2 h)⟩

/--
Runs the dialogues numbered from `next` on and before `stop`, at most `width` of them at a time,
until all are over.
-/
def run (w : World σ) (turn : Turn) (width stop : Nat) (dialogue : Nat → Dialogue α) (next : Nat)
    (p : Pool σ α) : Pool σ α :=
  if next < stop ∧ p.tasks.length < width then
    run w turn width stop dialogue (next + 1) (p.add (dialogue next))
  else if h : p.tasks = [] then p
  else run w turn width stop dialogue next (p.resume w (p.place turn h))
termination_by WellFounded.wrap
  (Prod.lex Nat.lt_wfRel ⟨Shrinks (α := α), shrinks_wellFounded⟩).wf (stop - next, p.tasks)
decreasing_by
  · exact .left _ _ (by omega)
  · exact .right _ (shrinks_resume w p _)

end Pool

end Turnpike
