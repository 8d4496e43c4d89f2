import Mathlib.Data.List.DropRight
import Turnpike.Policy.Store

namespace Turnpike

namespace PolicyStore

variable (s : PolicyStore)

theorem update_eq (policy : ServicePolicy) : s.update policy =
    policy.validate.map fun _ =>
      ⟨s.version + 1, s.snapshot.services.insert policy.service policy⟩ := by
  unfold update
  cases policy.validate with
  | ok => rfl
  | error => rfl

theorem get?_remove (removed service : String) :
    (s.remove removed).get? service = if service = removed then none else s.get? service :=
  Dict.get?_erase ..

end PolicyStore

structure StoreEvent where
  call : StoreCall
  answer : call.Answer

namespace StoreEvent

def published? : StoreEvent → Option PolicySnapshot
  | ⟨.publish next, .ok _⟩ => some next
  | _ => none

def left? (service : String) : StoreEvent → Option (Option ServicePolicy)
  | ⟨.update policy, .ok _⟩ => if service = policy.service then some (some policy) else none
  | ⟨.remove removed, _⟩ => if service = removed then some none else none
  | _ => none

def outcome? : StoreEvent → Option (Except PolicyError Nat)
  | ⟨.publish _, outcome⟩ | ⟨.update _, outcome⟩ => some outcome
  | _ => none

def taken? : StoreEvent → Option PolicySnapshot
  | ⟨.take, snapshot⟩ => some snapshot
  | _ => none

variable {service : String} {log : List StoreEvent} {e : StoreEvent}

def sincePublication (log : List StoreEvent) : List StoreEvent :=
  log.rtakeWhile (·.published?.isNone)

def standing? (service : String) (log : List StoreEvent) : Option ServicePolicy :=
  ((sincePublication log).filterMap (left? service)).getLast?.getD <|
    (log.filterMap published?).getLast?.bind (·.get? service)

theorem standing?_concat : standing? service (log ++ [e]) = match e.published? with
    | some next => next.get? service
    | none => (e.left? service).getD (standing? service log) := by
  unfold standing? sincePublication
  rw [List.rtakeWhile_concat]
  cases hp : e.published? with
  | some next => simp [hp]
  | none => cases hl : e.left? service with
    | some p => simp [hp, hl]
    | none => simp [hp, hl]

end StoreEvent

namespace StoreCall

def isRead : StoreCall → Bool
  | .publish _ | .update _ | .remove _ => false
  | .get _ | .version | .take | .held _ => true

end StoreCall

namespace StoreSession

variable (s : StoreSession)

def event (call : StoreCall) : StoreEvent := ⟨call, (s.answer call).1⟩

def record : StoreSession → List StoreCall → List StoreEvent × StoreSession
  | s, [] => ([], s)
  | s, call :: calls =>
    let (log, s') := record (s.answer call).2 calls
    (s.event call :: log, s')

theorem record_concat (calls : List StoreCall) (call : StoreCall) :
    s.record (calls ++ [call]) =
      let (log, s') := s.record calls
      (log ++ [s'.event call], (s'.answer call).2) := by
  induction calls generalizing s with
  | nil => rfl
  | cons c calls ih => simp only [List.cons_append, record, ih]

theorem answer_publish (next : PolicySnapshot) : s.answer (.publish next) =
    if next.version ≤ s.store.version then (.error (.stale s.store.version next.version), s)
    else (.ok next.version, { s with store := ⟨next⟩ }) := by
  simp only [answer, PolicyStore.publish]
  split <;> rfl

theorem answer_update (policy : ServicePolicy) : s.answer (.update policy) =
    match policy.validate with
    | .error e => (.error e, s)
    | .ok () =>
      let services := s.store.snapshot.services.insert policy.service policy
      (.ok (s.store.version + 1), { s with store := ⟨s.store.version + 1, services⟩ }) := by
  simp only [answer, PolicyStore.update_eq]
  cases policy.validate with
  | ok => rfl
  | error => rfl

theorem get?_answer (call : StoreCall) (service : String) :
    (s.answer call).2.store.get? service = match (s.event call).published? with
      | some next => next.get? service
      | none => ((s.event call).left? service).getD (s.store.get? service) := by
  cases call with
  | publish next =>
    simp only [event, answer_publish]
    split <;> rfl
  | update policy =>
    simp only [event, answer_update]
    cases policy.validate with
    | error e => rfl
    | ok =>
      simp only [StoreEvent.published?, StoreEvent.left?]
      refine (Dict.get?_insert ..).trans ?_
      split <;> rfl
  | remove removed =>
    simp only [event, StoreEvent.published?, StoreEvent.left?, answer, PolicyStore.get?_remove]
    split <;> rfl
  | get | version | take | held => rfl

theorem held_answer (call : StoreCall) :
    (s.answer call).2.held = s.held ++ (s.event call).taken?.toList := by
  cases call with
  | publish next =>
    simp only [event, answer_publish]
    split <;> simp [StoreEvent.taken?]
  | update policy =>
    simp only [event, answer_update]
    cases policy.validate <;> simp [StoreEvent.taken?]
  | take => rfl
  | remove | get | version | held => simp [answer, event, StoreEvent.taken?]

theorem outcome_cases {call : StoreCall} {outcome : Except PolicyError Nat}
    (h : (s.event call).outcome? = some outcome) :
    (∃ e, outcome = .error e ∧ (s.answer call).2 = s) ∨
      ∃ v, outcome = .ok v ∧ s.store.version < v ∧ (s.answer call).2.store.version = v := by
  cases call with
  | publish next =>
    obtain rfl := Option.some.inj h
    rw [answer_publish]
    split
    · exact .inl ⟨_, rfl, rfl⟩
    · next hlt => exact .inr ⟨_, rfl, Nat.lt_of_not_le hlt, rfl⟩
  | update policy =>
    obtain rfl := Option.some.inj h
    rw [answer_update]
    cases policy.validate with
    | error e => exact .inl ⟨e, rfl, rfl⟩
    | ok => exact .inr ⟨_, rfl, Nat.lt_succ_self _, rfl⟩
  | remove | get | version | take | held => cases h

theorem answer_of_refused {call : StoreCall} {e : PolicyError}
    (h : (s.event call).outcome? = some (.error e)) : (s.answer call).2 = s := by
  obtain ⟨-, -, hs⟩ | ⟨_, hok, -⟩ := s.outcome_cases h
  · exact hs
  · cases hok

theorem version_answer {call : StoreCall} {v : Nat} (h : (s.event call).outcome? = some (.ok v)) :
    s.store.version < v ∧ (s.answer call).2.store.version = v := by
  obtain ⟨_, herr, -⟩ | ⟨_, hok, hv⟩ := s.outcome_cases h
  · cases herr
  · cases hok
    exact hv

theorem store_answer_of_isRead {call : StoreCall} (h : call.isRead) :
    (s.answer call).2.store = s.store := by
  cases call with
  | publish | update | remove => cases h
  | get | version | take | held => rfl

variable (calls : List StoreCall)

theorem get?_record (service : String) :
    (record {} calls).2.store.get? service = StoreEvent.standing? service (record {} calls).1 := by
  induction calls using List.reverseRecOn with
  | nil => rfl
  | append_singleton calls call ih =>
    rw [record_concat]
    simp only [get?_answer, StoreEvent.standing?_concat, ih]

theorem held_record :
    (record {} calls).2.held = (record {} calls).1.filterMap StoreEvent.taken? := by
  induction calls using List.reverseRecOn with
  | nil => rfl
  | append_singleton calls call ih =>
    rw [record_concat]
    simp only [held_answer, ih, List.filterMap_append]
    cases h : (event _ call).taken? <;> simp [h]

end StoreSession

/--
A store that was empty at first, after any calls. It takes a publication exactly if its version is
later, and an update exactly if the policy is valid; what it refuses leaves all as it was. What it
holds for a service is what the log left standing. The snapshots that were taken remain as they were
handed out.
-/
theorem store_follows_history (calls : List StoreCall) :
    let (log, s) := StoreSession.record {} calls
    (∀ next, (s.answer (.publish next)).1.isOk ↔ s.store.version < next.version) ∧
    (∀ policy, (s.answer (.update policy)).1.isOk ↔ policy.validate = .ok ()) ∧
    (∀ call e, (s.event call).outcome? = some (.error e) → (s.answer call).2 = s) ∧
    (∀ call v, (s.event call).outcome? = some (.ok v) →
      s.store.version < v ∧ (s.answer call).2.store.version = v) ∧
    (∀ policy v, (s.answer (.update policy)).1 = .ok v → v = s.store.version + 1) ∧
    (∀ service, (s.answer (.remove service)).2.store.version = s.store.version + 1) ∧
    (∀ service, (s.answer (.remove service)).1 = (s.answer (.get service)).1.isSome) ∧
    (∀ call, call.isRead → (s.answer call).2.store = s.store) ∧
    (s.answer .version).1 = s.store.version ∧ (s.answer .take).1 = s.store.snapshot ∧
    (∀ service, (s.answer (.get service)).1 = StoreEvent.standing? service log) ∧
    ∀ place, (s.answer (.held place)).1 = (log.filterMap StoreEvent.taken?)[place]? := by
  have hget := StoreSession.get?_record calls
  have hheld := StoreSession.held_record calls
  generalize StoreSession.record {} calls = r at hget hheld
  obtain ⟨log, s⟩ := r
  refine ⟨fun next => ?_, fun policy => ?_, fun _ _ => s.answer_of_refused,
    fun _ _ => s.version_answer, fun policy v h => ?_, fun _ => rfl, fun _ => rfl,
    fun _ => s.store_answer_of_isRead, rfl, rfl, hget, fun place => congrArg (·[place]?) hheld⟩
  · rw [StoreSession.answer_publish, ← Nat.not_le]
    split <;> simp [Except.isOk, Except.toBool, *]
  · rw [StoreSession.answer_update]
    cases policy.validate <;> simp [Except.isOk, Except.toBool]
  · rw [StoreSession.answer_update] at h
    cases hvalid : policy.validate with
    | error e => simp [hvalid] at h
    | ok => simpa [hvalid, eq_comm] using h

end Turnpike
