namespace Turnpike

structure Registry (α : Type) where
  entries : List (String × α)
  nodup : (entries.map (·.1)).Nodup

inductive RegistryError
  | taken (name : String)
  | missing (name : String)
  deriving DecidableEq

def RegistryError.message : RegistryError → String
  | .taken name => s!"Factory already registered: {name}"
  | .missing name => s!"Factory not found: {name}"

namespace Registry

variable {α : Type}

def empty : Registry α := ⟨[], by simp⟩

def types (r : Registry α) : List String := r.entries.map (·.1)

def size (r : Registry α) : Nat := r.entries.length

def isEmpty (r : Registry α) : Bool := r.entries.isEmpty

def get? (r : Registry α) (name : String) : Option α := r.entries.lookup name

def contains (r : Registry α) (name : String) : Bool := name ∈ r.types

def require (r : Registry α) (name : String) : Except RegistryError α :=
  match r.get? name with
  | some a => .ok a
  | none => .error (.missing name)

def overwrite (name : String) (a : α) (entries : List (String × α)) : List (String × α) :=
  entries.map fun (n, b) => (n, if n = name then a else b)

theorem map_fst_overwrite (name : String) (a : α) (entries : List (String × α)) :
    (overwrite name a entries).map (·.1) = entries.map (·.1) := by
  simp [overwrite, Function.comp_def]

/-- A new type goes to the end; one that is known keeps its place. -/
def replace (r : Registry α) (name : String) (a : α) : Registry α :=
  if h : name ∈ r.entries.map (·.1) then
    ⟨overwrite name a r.entries, by rw [map_fst_overwrite]; exact r.nodup⟩
  else
    ⟨r.entries ++ [(name, a)], by
      rw [List.map_append, List.nodup_append]
      refine ⟨r.nodup, by simp, ?_⟩
      rintro x hx y hy rfl
      simp only [List.map_cons, List.map_nil, List.mem_singleton] at hy
      exact h (hy ▸ hx)⟩

def register (r : Registry α) (name : String) (a : α) : Except RegistryError (Registry α) :=
  if r.contains name then .error (.taken name) else .ok (r.replace name a)

def ofList (l : List (String × α)) : Registry α := l.foldl (fun r (n, a) => r.replace n a) empty

end Registry

end Turnpike
