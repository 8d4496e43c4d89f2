import Turnpike.Json.Edit
import Turnpike.Proofs.Literals
import Mathlib.Tactic.Common

namespace Turnpike.Json

/-- A value without doubles, whose printed text is its exact document. -/
inductive Plain : Json → Prop
  | null : Plain .null
  | bool (b : Bool) : Plain (.bool b)
  | int (n : Int) : Plain (.int n)
  | str (s : String) : Plain (.str s)
  | arr {items : List Json} : (∀ v ∈ items, Plain v) → Plain (.arr items)
  | obj {members : List (String × Json)} : (∀ m ∈ members, Plain m.2) → Plain (.obj members)

mutual

def doc : Json → Doc
  | .null | .float _ => .null
  | .bool b => .bool b
  | .int n => .number (.ofInt n)
  | .str s => .str (some s)
  | .arr items => .arr (docItems items) none
  | .obj members => .ofMembers (docMembers members)

def docItems : List Json → List Doc
  | [] => []
  | v :: vs => v.doc :: docItems vs

def docMembers : List (String × Json) → List (String × Doc)
  | [] => []
  | (k, v) :: ms => (k, v.doc) :: docMembers ms

end

theorem skipBlank_newline (depth : Nat) (cs : List Char) :
    skipBlank (newline depth ++ cs) = skipBlank cs := by
  have hblank : ∀ n, skipBlank (List.replicate n ' ' ++ cs) = skipBlank cs := by
    intro n
    induction n with
    | zero => rfl
    | succ n ih => exact ih
  exact hblank _

theorem skipBlank_cons {c : Char} (h : isBlank c = false) (cs : List Char) :
    skipBlank (c :: cs) = c :: cs := by
  simp [skipBlank, h]

theorem isBlank_of_isDigit {c : Char} (h : c.isDigit = true) : isBlank c = false := by
  by_contra hblank
  simp only [isBlank, Bool.not_eq_false, Bool.or_eq_true, beq_iff_eq] at hblank
  rcases hblank with ((rfl | rfl) | rfl) | rfl <;> exact absurd h (by decide)

theorem readValue_congr {cs cs' : List Char} (h : skipBlank cs = skipBlank cs') (fuel : Nat) :
    readValue fuel cs = readValue fuel cs' := by
  cases fuel with
  | zero => rfl
  | succ fuel => rw [readValue, readValue, h]

theorem readValue_blank (fuel : Nat) (cs : List Char) :
    readValue fuel (' ' :: cs) = readValue fuel cs := by
  have hskip : skipBlank (' ' :: cs) = skipBlank cs := rfl
  exact readValue_congr hskip fuel

theorem readItems_congr {cs cs' : List Char} (h : skipBlank cs = skipBlank cs') (fuel : Nat) :
    readItems fuel cs = readItems fuel cs' := by
  cases fuel with
  | zero => rfl
  | succ fuel => rw [readItems, readItems, readValue_congr h]

theorem readMembers_congr {cs cs' : List Char} (h : skipBlank cs = skipBlank cs') (fuel : Nat) :
    readMembers fuel cs = readMembers fuel cs' := by
  cases fuel with
  | zero => rfl
  | succ fuel => rw [readMembers, readMembers, h]

theorem readValue_digit {c : Char} (hc : c.isDigit = true) (fuel : Nat) (cs : List Char) :
    readValue (fuel + 1) (c :: cs) = readNumber false (c :: cs) := by
  rw [readValue, skipBlank_cons (isBlank_of_isDigit hc)]
  split
  case h_1 heq => cases heq
  case h_9 heq =>
    obtain ⟨rfl, rfl⟩ := List.cons_eq_cons.1 heq
    simp [digit?_eq_some hc]
  -- The other characters that may begin a value are no digits.
  all_goals
    rename_i heq
    obtain ⟨rfl, -⟩ := List.cons_eq_cons.1 heq
    exact absurd hc (by decide)

theorem exists_toDigits_eq_cons (n : Nat) :
    ∃ c cs, Nat.toDigits 10 n = c :: cs ∧ c.isDigit = true := by
  obtain ⟨c, cs, hcs⟩ := List.exists_cons_of_ne_nil (Nat.toDigits_ne_nil (n := n) (b := 10))
  have hc : c ∈ Nat.toDigits 10 n := hcs ▸ List.mem_cons_self ..
  exact ⟨c, cs, hcs, Nat.isDigit_of_mem_toDigits (by decide) (by decide) hc⟩

theorem readValue_intText (fuel : Nat) (n : Int) {rest : List Char} (hrest : EndsNumber rest) :
    readValue (fuel + 1) (intText n ++ rest) = (.number (.ofInt n), some rest) := by
  have hnumber := readNumber_toDigits n hrest
  unfold intText
  split
  · rename_i hneg
    rw [decide_eq_true hneg] at hnumber
    rw [List.cons_append, readValue, skipBlank_cons (by decide)]
    exact hnumber
  · rename_i hpos
    rw [decide_eq_false hpos] at hnumber
    obtain ⟨c, cs, hcs, hc⟩ := exists_toDigits_eq_cons n.natAbs
    rw [← hnumber, hcs]
    exact readValue_digit hc fuel _

theorem quoted_append (s : String) (rest : List Char) :
    quoted s ++ rest = '"' :: (s.toList.flatMap escapeChar ++ '"' :: rest) := by
  simp [quoted]

theorem readValue_quoted (fuel : Nat) (s : String) (rest : List Char) :
    readValue (fuel + 1) (quoted s ++ rest) = (.str (some s), some rest) := by
  rw [quoted_append, readValue, skipBlank_cons (by decide)]
  exact readString_escaped s rest

theorem EndsNumber.of_cons {c : Char} (h : digit? c = none ∧ c ≠ '.' ∧ c ≠ 'e' ∧ c ≠ 'E')
    (cs : List Char) : EndsNumber (c :: cs) := by
  intro c' cs' heq
  obtain ⟨rfl, -⟩ := List.cons_eq_cons.1 heq
  exact h

theorem readValue_arr {c : Char} (hblank : isBlank c = false) (hne : c ≠ ']') {fuel : Nat}
    (depth : Nat) {cs rest : List Char} {items : List Doc}
    (hitems : readItems fuel (c :: cs) = (items, none, some rest)) :
    readValue (fuel + 1) ('[' :: (newline depth ++ c :: cs)) = (.arr items none, some rest) := by
  rw [readValue, skipBlank_cons (by decide)]
  simp only [skipBlank_newline, skipBlank_cons hblank]
  split
  · contradiction
  · rename_i heq
    exact absurd (List.cons_eq_cons.1 heq).1 hne
  · simp [hitems]

theorem readValue_obj {fuel : Nat} (depth : Nat) {cs rest : List Char} {members : List (Key × Doc)}
    (hmembers : readMembers fuel ('"' :: cs) = (members, none, some rest)) :
    readValue (fuel + 1) ('{' :: (newline depth ++ '"' :: cs)) =
      (.obj members none, some rest) := by
  rw [readValue, skipBlank_cons (by decide)]
  simp only [skipBlank_newline]
  rw [skipBlank_cons (by decide)]
  simp [hmembers]

theorem readItems_last {fuel : Nat} {d : Doc} {cs cs' rest : List Char}
    (hd : readValue fuel cs = (d, some cs')) (hcs : skipBlank cs' = ']' :: rest) :
    readItems (fuel + 1) cs = ([d], none, some rest) := by
  simp [readItems, hd, hcs]

theorem readItems_more {fuel : Nat} {d : Doc} {cs cs' cs'' : List Char}
    (hd : readValue fuel cs = (d, some cs')) (hcs : skipBlank cs' = ',' :: cs'')
    {items : List Doc} {rest : List Char}
    (hitems : readItems fuel cs'' = (items, none, some rest)) :
    readItems (fuel + 1) cs = (d :: items, none, some rest) := by
  simp [readItems, hd, hcs, hitems]

theorem readMembers_last {fuel : Nat} {d : Doc} {cs cs' rest : List Char} (k : String)
    (hd : readValue fuel cs = (d, some cs')) (hcs : skipBlank cs' = '}' :: rest) :
    readMembers (fuel + 1) (quoted k ++ ':' :: ' ' :: cs) =
      ([(.text (some k), d)], none, some rest) := by
  obtain ⟨ms, hms, hunite⟩ := exists_marks_escaped k.toList (':' :: ' ' :: cs)
  simp [readMembers, quoted_append, skipBlank_cons (c := '"') rfl,
    skipBlank_cons (c := ':') rfl, hms, hunite, readValue_blank,
    hd, hcs]

theorem readMembers_more {fuel : Nat} {d : Doc} {cs cs' cs'' : List Char} (k : String)
    (hd : readValue fuel cs = (d, some cs')) (hcs : skipBlank cs' = ',' :: cs'')
    {members : List (Key × Doc)} {rest : List Char}
    (hmembers : readMembers fuel cs'' = (members, none, some rest)) :
    readMembers (fuel + 1) (quoted k ++ ':' :: ' ' :: cs) =
      ((.text (some k), d) :: members, none, some rest) := by
  obtain ⟨ms, hms, hunite⟩ := exists_marks_escaped k.toList (':' :: ' ' :: cs)
  simp [readMembers, quoted_append, skipBlank_cons (c := '"') rfl,
    skipBlank_cons (c := ':') rfl, hms, hunite, readValue_blank,
    hd, hcs, hmembers]

theorem Plain.exists_layout_eq_cons {v : Json} (hv : v.Plain) (depth : Nat) :
    ∃ c cs, layout depth v = c :: cs ∧ isBlank c = false ∧ c ≠ ']' := by
  cases hv with
  | null => exact ⟨_, _, rfl, rfl, by decide⟩
  | bool b => cases b <;> exact ⟨_, _, rfl, rfl, by decide⟩
  | int n =>
    rw [layout, intText]
    split
    · exact ⟨_, _, rfl, rfl, by decide⟩
    · obtain ⟨c, cs, hcs, hc⟩ := exists_toDigits_eq_cons n.natAbs
      exact ⟨c, cs, hcs, isBlank_of_isDigit hc, by rintro rfl; exact absurd hc (by decide)⟩
  | str s => exact ⟨_, _, rfl, rfl, by decide⟩
  | @arr items _ => cases items <;> exact ⟨_, _, rfl, rfl, by decide⟩
  | @obj members _ => cases members <;> exact ⟨_, _, rfl, rfl, by decide⟩

theorem endsNumber_layoutItems (depth depth' : Nat) (vs : List Json) (rest : List Char) :
    EndsNumber (layoutItems depth vs ++ (newline depth' ++ ']' :: rest)) := by
  cases vs <;> exact .of_cons (by decide) _

theorem endsNumber_layoutMembers (depth depth' : Nat) (ms : List (String × Json))
    (rest : List Char) :
    EndsNumber (layoutMembers depth ms ++ (newline depth' ++ '}' :: rest)) := by
  cases ms <;> exact .of_cons (by decide) _

mutual

theorem readValue_layout : ∀ (v : Json) (fuel depth : Nat) {rest : List Char}, v.Plain →
    EndsNumber rest → 2 * (layout depth v).length ≤ fuel →
    readValue fuel (layout depth v ++ rest) = (v.doc, some rest)
  | .null, _ + 1, _, _, _, _, _ => rfl
  | .bool true, _ + 1, _, _, _, _, _ => rfl
  | .bool false, _ + 1, _, _, _, _, _ => rfl
  | .int n, 0, depth, _, _, _, hfuel => by
    obtain ⟨c, cs, hcs, -⟩ := (Plain.int n).exists_layout_eq_cons depth
    simp [hcs] at hfuel
  | .int n, fuel + 1, _, _, _, hrest, _ => readValue_intText fuel n hrest
  | .str s, fuel + 1, _, rest, _, _, _ => readValue_quoted fuel s rest
  | .arr [], _ + 1, _, _, _, _, _ => rfl
  | .arr (v :: vs), fuel + 1, depth, rest, .arr hplain, hrest, hfuel => by
    obtain ⟨hv, hvs⟩ := List.forall_mem_cons.1 hplain
    simp only [layout, List.length_append, List.length_cons] at hfuel
    obtain ⟨fuel, rfl⟩ : ∃ n, fuel = n + 1 := Nat.exists_eq_succ_of_ne_zero (by omega)
    have hvalue := readValue_layout v fuel (depth + 1) hv
      (endsNumber_layoutItems (depth + 1) depth vs rest) (by omega)
    have hitems := readItems_layoutItems vs hvs (by omega) hvalue
    obtain ⟨c, cs, hcs, hblank, hne⟩ := hv.exists_layout_eq_cons (depth + 1)
    rw [hcs] at hitems
    have harr := readValue_arr hblank hne (depth + 1) hitems
    simpa [layout, hcs, doc, docItems] using harr
  | .obj [], _ + 1, _, _, _, _, _ => rfl
  | .obj ((k, v) :: ms), fuel + 1, depth, rest, .obj hplain, hrest, hfuel => by
    obtain ⟨hv, hms⟩ := List.forall_mem_cons.1 hplain
    simp only [layout, List.length_append, List.length_cons] at hfuel
    obtain ⟨fuel, rfl⟩ : ∃ n, fuel = n + 1 := Nat.exists_eq_succ_of_ne_zero (by omega)
    have hvalue := readValue_layout v fuel (depth + 1) hv
      (endsNumber_layoutMembers (depth + 1) depth ms rest) (by omega)
    have hmembers := readMembers_layoutMembers ms k hms (by omega) hvalue
    rw [quoted_append] at hmembers
    have hobj := readValue_obj (depth + 1) hmembers
    simpa [layout, quoted, doc, docMembers, Doc.ofMembers] using hobj

theorem readItems_layoutItems : ∀ (vs : List Json) {fuel depth depth' : Nat} {d : Doc}
    {cs rest : List Char}, (∀ v ∈ vs, v.Plain) → 2 * (layoutItems depth vs).length ≤ fuel →
    readValue fuel cs = (d, some (layoutItems depth vs ++ (newline depth' ++ ']' :: rest))) →
    readItems (fuel + 1) cs = (d :: docItems vs, none, some rest)
  | [], fuel, depth, depth', d, cs, rest, _, _, hd => readItems_last hd (skipBlank_newline ..)
  | v :: vs, fuel + 1, depth, depth', d, cs, rest, hplain, hfuel, hd => by
    obtain ⟨hv, hvs⟩ := List.forall_mem_cons.1 hplain
    simp only [layoutItems, List.length_append, List.length_cons] at hfuel
    have hvalue := readValue_layout v fuel depth hv
      (endsNumber_layoutItems depth depth' vs rest) (by omega)
    have hitems := readItems_layoutItems vs hvs (by omega) hvalue
    rw [← readItems_congr (skipBlank_newline depth _)] at hitems
    refine readItems_more hd ?_ hitems
    simp [layoutItems, skipBlank_cons (c := ',') rfl]

theorem readMembers_layoutMembers : ∀ (ms : List (String × Json)) {fuel depth depth' : Nat}
    {d : Doc} (k : String) {cs rest : List Char}, (∀ m ∈ ms, m.2.Plain) →
    2 * (layoutMembers depth ms).length ≤ fuel →
    readValue fuel cs = (d, some (layoutMembers depth ms ++ (newline depth' ++ '}' :: rest))) →
    readMembers (fuel + 1) (quoted k ++ ':' :: ' ' :: cs) =
      (((k, d) :: docMembers ms).map (fun (k, d) => (.text (some k), d)), none, some rest)
  | [], fuel, depth, depth', d, k, cs, rest, _, _, hd =>
    readMembers_last k hd (skipBlank_newline ..)
  | (l, v) :: ms, fuel + 1, depth, depth', d, k, cs, rest, hplain, hfuel, hd => by
    obtain ⟨hv, hms⟩ := List.forall_mem_cons.1 hplain
    simp only [layoutMembers, List.length_append, List.length_cons] at hfuel
    have hvalue := readValue_layout v fuel depth hv
      (endsNumber_layoutMembers depth depth' ms rest) (by omega)
    have hmembers := readMembers_layoutMembers ms l hms (by omega) hvalue
    rw [← readMembers_congr (skipBlank_newline depth _)] at hmembers
    refine readMembers_more k hd ?_ hmembers
    simp [layoutMembers, skipBlank_cons (c := ',') rfl]

end

theorem doc_obj (ms : List (String × Json)) :
    (Json.obj ms).doc = .ofMembers (ms.map fun m => (m.1, m.2.doc)) := by
  have hmembers : docMembers ms = ms.map fun m => (m.1, m.2.doc) := by
    induction ms with
    | nil => rfl
    | cons m ms ih => rw [docMembers, ih, List.map_cons]
  rw [doc, hmembers]

theorem Plain.ofText_pretty {v : Json} (hv : v.Plain) :
    Source.ofText (pretty v) = ⟨v.doc, true⟩ := by
  have hends : EndsNumber [] := fun _ _ h => by cases h
  have hread := readValue_layout v (2 * (layout 0 v).length + 2) 0 hv
    hends (by omega)
  rw [List.append_nil] at hread
  simp [Source.ofText, pretty, hread, skipBlank]

end Turnpike.Json
