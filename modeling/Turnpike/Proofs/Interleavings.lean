import Mathlib.Algebra.BigOperators.Group.Multiset.Basic
import Mathlib.Data.Multiset.Bind
import Mathlib.Logic.Relation
import Turnpike.Invocation.Pool
import Turnpike.Proofs.Runs

namespace Turnpike

structure Batch (σ α : Type) where
  state : σ
  next : Nat
  waiting : Multiset (List Event × Dialogue α) := 0
  ended : List (List Event × α) := []

namespace Batch

variable {σ α : Type}

inductive Step (w : World σ) (dialogue : Nat → Dialogue α) : Batch σ α → Batch σ α → Prop
  | enter {s : σ} {n : Nat} {ws : Multiset (List Event × Dialogue α)}
    {os : List (List Event × α)} :
    Step w dialogue ⟨s, n, ws, os⟩ ⟨s, n + 1, ([], dialogue n) ::ₘ ws, os⟩
  | answer {s : σ} {n : Nat} {ws : Multiset (List Event × Dialogue α)}
    {os : List (List Event × α)} {es : List Event} {q : Question} {next : q.Answer → Dialogue α}
    (now : Nat) :
    Step w dialogue ⟨s, n, (es, .ask q next) ::ₘ ws, os⟩
      ⟨(w.answer q now s).2, n,
        (es ++ [⟨q, (w.answer q now s).1⟩], next (w.answer q now s).1) ::ₘ ws, os⟩
  | leave {s : σ} {n : Nat} {ws : Multiset (List Event × Dialogue α)}
    {os : List (List Event × α)} {es : List Event} {a : α} :
    Step w dialogue ⟨s, n, (es, .done a) ::ₘ ws, os⟩ ⟨s, n, ws, os ++ [(es, a)]⟩

def Reaches (w : World σ) (dialogue : Nat → Dialogue α) : Batch σ α → Batch σ α → Prop :=
  Relation.ReflTransGen (Step w dialogue)

variable {w : World σ} {dialogue : Nat → Dialogue α} {b b' : Batch σ α}

/-- A dialogue under way is what its events have left of one that began. -/
structure Faithful (dialogue : Nat → Dialogue α) (b : Batch σ α) : Prop where
  waiting : ∀ x ∈ b.waiting, ∃ n, ∀ es a, x.2.Runs es a → (dialogue n).Runs (x.1 ++ es) a
  ended : ∀ x ∈ b.ended, ∃ n, (dialogue n).Runs x.1 x.2

theorem Step.faithful (h : Step w dialogue b b') (hb : b.Faithful dialogue) :
    b'.Faithful dialogue := by
  cases h with
  | @enter s n ws os =>
    refine ⟨fun x hx => ?_, hb.ended⟩
    rcases Multiset.mem_cons.1 hx with rfl | hx
    · exact ⟨n, fun _ _ h => h⟩
    · exact hb.waiting x hx
  | answer now =>
    refine ⟨fun x hx => ?_, hb.ended⟩
    rcases Multiset.mem_cons.1 hx with rfl | hx
    · obtain ⟨n, hn⟩ := hb.waiting _ (Multiset.mem_cons_self ..)
      refine ⟨n, fun es a h => ?_⟩
      rw [List.append_assoc]
      exact hn _ _ (.ask h)
    · exact hb.waiting x (Multiset.mem_cons_of_mem hx)
  | leave =>
    refine ⟨fun x hx => hb.waiting x (Multiset.mem_cons_of_mem hx), fun x hx => ?_⟩
    rcases List.mem_append.1 hx with hx | hx
    · exact hb.ended x hx
    · obtain rfl := List.mem_singleton.1 hx
      obtain ⟨n, hn⟩ := hb.waiting _ (Multiset.mem_cons_self ..)
      exact ⟨n, by simpa using hn [] _ (.done _)⟩

theorem Reaches.faithful {s : σ} {n : Nat} (h : Reaches w dialogue ⟨s, n, 0, []⟩ b) :
    b.Faithful dialogue := by
  induction h with
  | refl => exact ⟨by simp, by simp⟩
  | tail _ hstep ih => exact hstep.faithful ih

theorem Step.count (h : Step w dialogue b b') :
    b'.next + b.waiting.card + b.ended.length = b.next + b'.waiting.card + b'.ended.length := by
  cases h <;> simp <;> omega

theorem Reaches.count {s : σ} {n : Nat} (h : Reaches w dialogue ⟨s, n, 0, []⟩ b) :
    b.next = n + b.waiting.card + b.ended.length := by
  induction h with
  | refl => rfl
  | tail _ hstep ih =>
    have := hstep.count
    omega

structure Makes (w : World σ) (dialogue : Nat → Dialogue α) (s : σ) (first calls : Nat)
    (b : Batch σ α) : Prop where
  reaches : Reaches w dialogue ⟨s, first, 0, []⟩ b
  next : b.next = first + calls
  waiting : b.waiting = 0

theorem Makes.length_ended {s : σ} {first calls : Nat} (h : b.Makes w dialogue s first calls) :
    b.ended.length = calls := by
  have hcount := h.reaches.count
  rw [h.waiting, h.next, Multiset.card_zero] at hcount
  omega

def events (b : Batch σ α) : Multiset Event :=
  b.waiting.bind (fun x => ↑x.1) + ↑(b.ended.flatMap (·.1))

theorem Step.cases (h : Step w dialogue b b') :
    (b'.state = b.state ∧ b'.events = b.events) ∨
      ∃ q now, b'.state = (w.answer q now b.state).2 ∧
        b'.events = ⟨q, (w.answer q now b.state).1⟩ ::ₘ b.events := by
  cases h with
  | enter => exact .inl ⟨rfl, by simp [events]⟩
  | answer now =>
    refine .inr ⟨_, now, rfl, ?_⟩
    simp only [events, Multiset.cons_bind, ← Multiset.coe_add, Multiset.coe_singleton]
    rw [← Multiset.singleton_add]
    ac_rfl
  | leave =>
    refine .inl ⟨rfl, ?_⟩
    simp only [events, Multiset.cons_bind, List.flatMap_append, List.flatMap_singleton,
      ← Multiset.coe_add]
    ac_rfl

theorem Reaches.keeps {s : σ} {n : Nat} (h : Reaches w dialogue ⟨s, n, 0, []⟩ b)
    {I : σ → Multiset Event → Prop} (hstart : I s 0)
    (hanswer : ∀ q now s es, I s es →
      I (w.answer q now s).2 (⟨q, (w.answer q now s).1⟩ ::ₘ es)) : I b.state b.events := by
  induction h with
  | refl => simpa [events] using hstart
  | tail _ hstep ih =>
    obtain ⟨hs, hes⟩ | ⟨q, now, hs, hes⟩ := hstep.cases
    · rwa [hs, hes]
    · rw [hs, hes]
      exact hanswer q now _ _ ih

end Batch

namespace Pool

variable {σ α : Type} {w : World σ} {dialogue : Nat → Dialogue α} {p : Pool σ α} {b : Batch σ α}

structure Shows (p : Pool σ α) (b : Batch σ α) : Prop where
  state : p.state = b.state
  tasks : (↑(p.tasks.map (·.rest)) : Multiset (Dialogue α)) = b.waiting.map (·.2)
  results : p.results.toList = b.ended.map (·.2)

theorem Shows.add (h : p.Shows b) (d : Dialogue α) :
    (p.add d).Shows { b with next := b.next + 1, waiting := ([], d) ::ₘ b.waiting } := by
  refine ⟨h.state, ?_, h.results⟩
  rw [Multiset.map_cons, ← h.tasks, ← Multiset.singleton_add, add_comm]
  simp [Pool.add, Task.fresh, ← Multiset.coe_add]

theorem reaches_of_toPause {now : Nat} {waited : Bool} {d : Dialogue α} {s s' : σ} {n : Nat}
    {es : List Event} {ws : Multiset (List Event × Dialogue α)} {os : List (List Event × α)}
    {r : α ⊕ Task α} (h : d.toPause w now waited s = (r, s')) :
    ∃ es', Batch.Reaches w dialogue ⟨s, n, (es, d) ::ₘ ws, os⟩ <| match r with
      | .inl a => ⟨s', n, ws, os ++ [(es', a)]⟩
      | .inr t => ⟨s', n, (es', t.rest) ::ₘ ws, os⟩ := by
  induction d generalizing waited s es with
  | done a =>
    cases h
    exact ⟨es, .single .leave⟩
  | ask q next ih =>
    unfold Dialogue.toPause at h
    split at h
    · obtain ⟨es', h⟩ := ih _ h
      exact ⟨es', .head (.answer now) h⟩
    · cases h
      exact ⟨es, .refl⟩

theorem Shows.resume (h : p.Shows b) (w : World σ) (dialogue : Nat → Dialogue α)
    (k : Fin p.tasks.length) :
    ∃ b', b.Reaches w dialogue b' ∧ b'.next = b.next ∧ (p.resume w k).Shows b' := by
  classical
  have htasks := h.tasks
  rw [Multiset.coe_eq_coe.2 ((perm_eraseIdx p.tasks k).map (·.rest)), List.map_cons,
    ← Multiset.cons_coe, eq_comm, ← Multiset.map_eq_cons] at htasks
  obtain ⟨⟨es, d⟩, hmem, hd, herase⟩ := htasks
  obtain ⟨s, n, ws, os⟩ := b
  obtain ⟨ws, rfl⟩ := Multiset.exists_cons_of_mem hmem
  rw [Multiset.erase_cons_head] at herase
  obtain rfl : p.state = s := h.state
  cases hpause : p.tasks[k].resume w (max p.now p.tasks[k].due) p.state with
  | mk r s' =>
    obtain rfl : d = p.tasks[k].rest := hd
    obtain ⟨es', hreach⟩ := reaches_of_toPause hpause
    refine ⟨_, hreach, ?_⟩
    unfold Pool.resume
    dsimp only
    rw [hpause]
    cases r with
    | inl a => exact ⟨rfl, rfl, herase.symm, by simp [h.results]⟩
    | inr t =>
      refine ⟨rfl, rfl, ?_, h.results⟩
      rw [Multiset.map_cons, herase, ← Multiset.singleton_add, add_comm]
      simp [← Multiset.coe_add]

theorem Shows.exists_run (h : p.Shows b) (w : World σ) (dialogue : Nat → Dialogue α) (turn : Turn)
    {width next stop : Nat} (hwidth : 0 < width) (hb : b.next = next) (hnext : next ≤ stop) :
    ∃ b', b.Reaches w dialogue b' ∧ b'.next = stop ∧ b'.waiting = 0 ∧
      (Pool.run w turn width stop dialogue next p).Shows b' := by
  fun_induction Pool.run w turn width stop dialogue next p generalizing b with
  | case1 next p hadd ih =>
    subst hb
    obtain ⟨b', hreach, hb'⟩ := ih (h.add _) rfl hadd.1
    exact ⟨b', .head .enter hreach, hb'⟩
  | case2 next p hadd hempty =>
    refine ⟨b, .refl, ?_, ?_, h⟩
    · have : ¬ next < stop := fun hlt => hadd ⟨hlt, by rwa [hempty]⟩
      omega
    · have htasks := h.tasks
      rw [hempty] at htasks
      exact Multiset.map_eq_zero.1 htasks.symm
  | case3 next p _ hne ih =>
    obtain ⟨b', hreach, hb', hshows⟩ := h.resume w dialogue (p.place turn hne)
    obtain ⟨b'', hreach', h⟩ := ih hshows (hb'.trans hb) hnext
    exact ⟨b'', hreach.trans hreach', h⟩

theorem exists_makes_run (w : World σ) (dialogue : Nat → Dialogue α) (turn : Turn) {width : Nat}
    (hwidth : 0 < width) (first calls : Nat) (s : σ) :
    ∃ b : Batch σ α, b.Makes w dialogue s first calls ∧
      (Pool.run w turn width (first + calls) dialogue first { state := s }).Shows b := by
  have hstart : ({ state := s } : Pool σ α).Shows ⟨s, first, 0, []⟩ := ⟨rfl, rfl, rfl⟩
  obtain ⟨b, hreach, hnext, hwaiting, hshows⟩ :=
    hstart.exists_run w dialogue turn hwidth rfl (Nat.le_add_right first calls)
  exact ⟨b, ⟨hreach, hnext, hwaiting⟩, hshows⟩

end Pool

end Turnpike
