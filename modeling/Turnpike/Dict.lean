import Turnpike.Json.Decode

/-!
Dictionaries in key order. The keys ascend strictly, so a dictionary is determined by its entries
and lists them in one way only. A set is a dictionary without values.
-/

namespace Turnpike

structure Dict (κ α : Type) [LT κ] where
  entries : List (κ × α)
  ascending : entries.Pairwise (·.1 < ·.1)

namespace Dict

variable {κ α β : Type} [LT κ]

theorem ext {d e : Dict κ α} (h : d.entries = e.entries) : d = e := by
  cases d; cases e; cases h; rfl

instance [DecidableEq κ] [DecidableEq α] : DecidableEq (Dict κ α) := fun d e =>
  if h : d.entries = e.entries then isTrue (ext h) else isFalse fun he => h (he ▸ rfl)

def empty : Dict κ α := ⟨[], .nil⟩

instance : Inhabited (Dict κ α) := ⟨empty⟩

def size (d : Dict κ α) : Nat := d.entries.length

def keys (d : Dict κ α) : List κ := d.entries.map (·.1)

def values (d : Dict κ α) : List α := d.entries.map (·.2)

def get? [DecidableEq κ] (d : Dict κ α) (k : κ) : Option α := d.entries.lookup k

def contains [DecidableEq κ] (d : Dict κ α) (k : κ) : Bool := (d.get? k).isSome

theorem nodup_keys [LE κ] [Std.LawfulOrderLT κ] (d : Dict κ α) : d.keys.Nodup := by
  refine List.pairwise_map.2 (d.ascending.imp fun hlt heq => ?_)
  exact Std.lt_irrefl (heq ▸ hlt)

def isEmpty (d : Dict κ α) : Bool := d.entries.isEmpty

theorem get?_of_isEmpty [DecidableEq κ] {d : Dict κ α} (h : d.isEmpty) (k : κ) :
    d.get? k = none := by
  simp [get?, List.isEmpty_iff.1 h]

omit [LT κ] in
theorem lookup_cons [DecidableEq κ] (k l : κ) (a : α) (r : List (κ × α)) :
    ((l, a) :: r).lookup k = if k = l then some a else r.lookup k := by
  by_cases h : k = l
  · simp [h]
  · simp [List.lookup_cons, beq_false_of_ne h, h]

section Insert

variable [DecidableEq κ] [DecidableLT κ]

def put (k : κ) (a : α) : List (κ × α) → List (κ × α)
  | [] => [(k, a)]
  | (k', a') :: r =>
    if k < k' then (k, a) :: (k', a') :: r
    else if k = k' then (k, a) :: r
    else (k', a') :: put k a r

theorem mem_put {k : κ} {a : α} {p : κ × α} :
    ∀ {r : List (κ × α)}, p ∈ put k a r → p = (k, a) ∨ p ∈ r
  | [], h => by simpa [put] using h
  | (k', a') :: r, h => by
    unfold put at h
    split at h
    · simpa using h
    · split at h
      · rcases List.mem_cons.1 h with h | h
        · exact .inl h
        · exact .inr (List.mem_cons_of_mem _ h)
      · rcases List.mem_cons.1 h with h | h
        · exact .inr (h ▸ List.mem_cons_self ..)
        · exact (mem_put h).imp_right (List.mem_cons_of_mem _)

theorem lookup_put (k k' : κ) (a : α) :
    ∀ r : List (κ × α), (put k a r).lookup k' = if k' = k then some a else r.lookup k'
  | [] => lookup_cons k' k a []
  | (l, b) :: r => by
    unfold put
    split
    · rw [lookup_cons]
    · split
      · rename_i _ hl
        subst hl
        rw [lookup_cons, lookup_cons]
        split <;> rfl
      · rename_i _ hl
        rw [lookup_cons, lookup_cons, lookup_put k k' a r]
        by_cases h : k' = k
        · subst h
          simp [hl]
        · simp [h]

variable [LE κ] [Std.IsLinearOrder κ] [Std.LawfulOrderLT κ]

theorem pairwise_put {k : κ} {a : α} :
    ∀ {r : List (κ × α)}, r.Pairwise (·.1 < ·.1) → (put k a r).Pairwise (·.1 < ·.1)
  | [], _ => by simp [put]
  | (k', a') :: r, h => by
    obtain ⟨hk, hr⟩ := List.pairwise_cons.1 h
    unfold put
    split
    · rename_i hlt
      refine List.pairwise_cons.2 ⟨fun p hp => ?_, h⟩
      rcases List.mem_cons.1 hp with rfl | hp
      · exact hlt
      · exact Std.lt_trans hlt (hk p hp)
    · split
      · rename_i _ heq
        subst heq
        exact List.pairwise_cons.2 ⟨hk, hr⟩
      · rename_i hlt hne
        refine List.pairwise_cons.2 ⟨fun p hp => ?_, pairwise_put hr⟩
        rcases mem_put hp with rfl | hp
        · exact Std.lt_of_le_of_ne (Std.not_lt.1 hlt) fun h => hne h.symm
        · exact hk p hp

omit [LE κ] [Std.IsLinearOrder κ] [Std.LawfulOrderLT κ] in
theorem put_perm {k : κ} {a : α} :
    ∀ {r : List (κ × α)}, k ∉ r.map (·.1) → (put k a r).Perm ((k, a) :: r)
  | [], _ => .refl _
  | (k', a') :: r, h => by
    obtain ⟨hne, hr⟩ : k ≠ k' ∧ k ∉ r.map (·.1) := by simpa using h
    unfold put
    split
    · exact .refl _
    · exact ((put_perm hr).cons _).trans (.swap ..)

def insert (d : Dict κ α) (k : κ) (a : α) : Dict κ α :=
  ⟨put k a d.entries, pairwise_put d.ascending⟩

@[simp] theorem get?_insert (d : Dict κ α) (k k' : κ) (a : α) :
    (d.insert k a).get? k' = if k' = k then some a else d.get? k' :=
  lookup_put k k' a d.entries

omit [DecidableLT κ] [Std.IsLinearOrder κ] in
theorem lookup_eq_none_of_lt {k : κ} {r : List (κ × α)} (h : ∀ p ∈ r, k < p.1) :
    r.lookup k = none := by
  induction r with
  | nil => rfl
  | cons p r ih =>
    obtain ⟨hp, hr⟩ := List.forall_mem_cons.1 h
    rw [lookup_cons, if_neg fun hk => Std.lt_irrefl (hk ▸ hp), ih hr]

theorem sum_values_insert (d : Dict κ Nat) (k : κ) (n : Nat) :
    (d.insert k n).values.foldr (· + ·) 0 + (d.get? k).getD 0 =
      d.values.foldr (· + ·) 0 + n := by
  obtain ⟨entries, h⟩ := d
  simp only [values, insert, get?]
  induction entries with
  | nil => simp [put]
  | cons p r ih =>
    obtain ⟨l, m⟩ := p
    obtain ⟨hl, hr⟩ := List.pairwise_cons.1 h
    have hrest := ih hr
    rw [lookup_cons]
    unfold put
    split
    · rename_i hlt
      have hnone := lookup_eq_none_of_lt fun p hp => Std.lt_trans hlt (hl p hp)
      rw [if_neg fun hk => Std.lt_irrefl (hk ▸ hlt), hnone]
      simp only [List.map_cons, List.foldr_cons, Option.getD_none]
      omega
    · split <;> simp only [List.map_cons, List.foldr_cons, Option.getD_some] <;> omega

/-- The pairs in key order; of two pairs with one key the later one stays. -/
def ofList (l : List (κ × α)) : Dict κ α := l.foldl (fun d (k, a) => d.insert k a) empty

theorem entries_foldl_insert_perm {l : List (κ × α)} {d : Dict κ α}
    (h : ((d.entries ++ l).map (·.1)).Nodup) :
    (l.foldl (fun d (k, a) => d.insert k a) d).entries.Perm (d.entries ++ l) := by
  induction l generalizing d with
  | nil => simp
  | cons p l ih =>
    have hswap : (d.entries ++ p :: l).Perm ((p :: d.entries) ++ l) := List.perm_middle
    have hnew := (hswap.map _).nodup h
    have hput : (d.insert p.1 p.2).entries.Perm (p :: d.entries) :=
      put_perm fun hmem => (List.nodup_cons.1 hnew).1 (by simp [hmem])
    have hall := hput.append_right l
    exact (ih ((hall.map _).symm.nodup hnew)).trans (hall.trans hswap.symm)

theorem entries_ofList_perm {l : List (κ × α)} (h : (l.map (·.1)).Nodup) :
    (ofList l).entries.Perm l :=
  entries_foldl_insert_perm (d := empty) h

end Insert

section Erase

variable [DecidableEq κ]

def erase (d : Dict κ α) (k : κ) : Dict κ α :=
  ⟨d.entries.filter (·.1 ≠ k), d.ascending.filter _⟩

variable [LE κ] [Std.LawfulOrderLT κ]

theorem get?_eq_some_iff {d : Dict κ α} {k : κ} {a : α} :
    d.get? k = some a ↔ (k, a) ∈ d.entries := by
  obtain ⟨entries, h⟩ := d
  unfold get?
  induction entries with
  | nil => simp
  | cons p r ih =>
    obtain ⟨l, b⟩ := p
    obtain ⟨hl, hr⟩ := List.pairwise_cons.1 h
    simp only [lookup_cons, List.mem_cons, Prod.mk.injEq]
    split
    · -- The key of the head is below all others.
      rename_i hk
      subst hk
      have hnot : (k, a) ∉ r := fun hmem => Std.lt_irrefl (hl (k, a) hmem)
      simp [hnot, eq_comm]
    · rename_i hk
      simpa [hk] using ih hr

@[simp] theorem get?_erase (d : Dict κ α) (k k' : κ) :
    (d.erase k).get? k' = if k' = k then none else d.get? k' := by
  apply Option.ext
  intro a
  split <;> simp [erase, get?_eq_some_iff, *]

end Erase

end Dict

abbrev SortedSet (κ : Type) [LT κ] := Dict κ Unit

namespace SortedSet

variable {κ : Type} [LT κ]

def toList (s : SortedSet κ) : List κ := s.keys

variable [DecidableEq κ] [DecidableLT κ] [LE κ] [Std.IsLinearOrder κ] [Std.LawfulOrderLT κ]

def ofList (l : List κ) : SortedSet κ := Dict.ofList (l.map (·, ()))

end SortedSet

instance {α : Type} [ToJson α] : ToJson (Dict String α) where
  toJson d := .obj (d.entries.map fun (k, a) => (k, toJson a))

instance {α : Type} [Json.Decode α] : Json.Decode (Dict String α) where
  decode d := Dict.ofList <$> d.asMembers Json.decode

end Turnpike
