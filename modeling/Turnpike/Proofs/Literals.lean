import Turnpike.Json.Printer
import Turnpike.Json.Reader
import Mathlib.Tactic.Common

namespace Turnpike.Json

theorem hexUnit?_hexDigits_of_lt : ∀ n < 0x10, ∃ x, hexDigits n = [x] ∧
    hexUnit? '0' '0' '0' x = some n := by
  have h : ∀ n < 0x10, hexDigits n = [n.digitChar] ∧
      hexUnit? '0' '0' '0' n.digitChar = some n := by decide
  exact fun n hn => ⟨_, h n hn⟩

theorem hexUnit?_hexDigits_of_le : ∀ n < 0x20, 0x10 ≤ n → ∃ x y, hexDigits n = [x, y] ∧
    hexUnit? '0' '0' x y = some n := by
  have h : ∀ n < 0x20, 0x10 ≤ n → hexDigits n = ['1', (n % 16).digitChar] ∧
      hexUnit? '0' '0' '1' (n % 16).digitChar = some n := by decide
  exact fun n hn hle => ⟨_, _, h n hn hle⟩

theorem marks_cons {c : Char} (hquote : c ≠ '"') (hslash : c ≠ '\\') (hlow : ¬c.toNat < 0x20)
    (cs : List Char) : marks (c :: cs) = (marks cs).map (.char c :: ·) id := by
  rw [marks.eq_def]
  split
  -- The patterns for a closing quote and for escapes do not fit.
  iterate 6 · simp_all
  · rename_i heq
    obtain ⟨rfl, rfl⟩ := List.cons_eq_cons.1 heq
    rw [if_neg hlow]

def Mark.Spells (m : Mark) (c : Char) : Prop := ∀ ms, unite (m :: ms) = (unite ms).map (c :: ·)

theorem Mark.Spells.char (c : Char) : (Mark.char c).Spells c := fun _ => rfl

theorem Mark.Spells.unit {c : Char} (h : c.toNat < 0x20) : (Mark.unit c.toNat).Spells c := by
  intro ms
  have hlead : isLead c.toNat = false := by simp [isLead]; omega
  have htrail : isTrail c.toNat = false := by simp [isTrail]; omega
  match ms with
  | [] => simp [unite, hlead, htrail]
  | .char _ :: _ => simp [unite, hlead, htrail]
  | .unit _ :: _ => rw [unite]; simp [hlead, htrail]

theorem exists_marks_escapeChar (c : Char) :
    ∃ m : Mark, m.Spells c ∧
      ∀ cs, marks (escapeChar c ++ cs) = (marks cs).map (m :: ·) id := by
  unfold escapeChar
  split
  -- The characters whose escape is a letter.
  iterate 7 · exact ⟨_, .char _, fun cs => by simp [marks, unescape?]⟩
  rename_i hquote hslash _ _ _ _ _
  split
  · rename_i hlt
    obtain ⟨x, hx, hunit⟩ := hexUnit?_hexDigits_of_lt _ hlt
    exact ⟨_, .unit (by omega), fun cs => by simp [hx, marks, hunit]⟩
  · split
    · rename_i hle hlt
      obtain ⟨x, y, hxy, hunit⟩ := hexUnit?_hexDigits_of_le _ hlt (Nat.not_lt.1 hle)
      exact ⟨_, .unit hlt, fun cs => by simp [hxy, marks, hunit]⟩
    · rename_i hlow
      exact ⟨_, .char _, marks_cons hquote hslash hlow⟩

theorem exists_marks_escaped (s rest : List Char) : ∃ ms,
    marks (s.flatMap escapeChar ++ '"' :: rest) = (ms, .ok rest) ∧ unite ms = some s := by
  induction s with
  | nil => exact ⟨[], by simp [marks], rfl⟩
  | cons c s ih =>
    obtain ⟨m, hm, hmarks⟩ := exists_marks_escapeChar c
    obtain ⟨ms, hms, hunite⟩ := ih
    refine ⟨m :: ms, ?_, by rw [hm, hunite]; rfl⟩
    rw [List.flatMap_cons, List.append_assoc, hmarks, hms]
    rfl

theorem readString_escaped (s : String) (rest : List Char) :
    readString (s.toList.flatMap escapeChar ++ '"' :: rest) = (.str (some s), some rest) := by
  obtain ⟨ms, hms, hunite⟩ := exists_marks_escaped s.toList rest
  simp [readString, hms, hunite]

/-- What may follow a number: nothing that could belong to it. -/
def EndsNumber (rest : List Char) : Prop :=
  ∀ c cs, rest = c :: cs → digit? c = none ∧ c ≠ '.' ∧ c ≠ 'e' ∧ c ≠ 'E'

def digitValue (c : Char) : Nat := c.toNat - '0'.toNat

theorem digit?_eq_some {c : Char} (h : c.isDigit = true) : digit? c = some (digitValue c) := by
  have hrange : '0' ≤ c ∧ c ≤ '9' := by
    simpa [Char.isDigit, Char.le_def] using h
  simp [digit?, hrange, digitValue]

theorem readDigits_append {ds rest : List Char} (hds : ∀ c ∈ ds, c.isDigit = true)
    (hrest : EndsNumber rest) : readDigits (ds ++ rest) = (ds.map digitValue, rest) := by
  induction ds with
  | nil =>
    match rest with
    | [] => rfl
    | c :: cs => simp [readDigits, (hrest c cs rfl).1]
  | cons c ds ih =>
    obtain ⟨hc, hds⟩ := List.forall_mem_cons.1 hds
    simp [readDigits, digit?_eq_some hc, ih hds]

theorem le_ofDigitChars (n : Nat) (ds : List Char) : n ≤ Nat.ofDigitChars 10 ds n := by
  rw [Nat.ofDigitChars_eq_ofDigitChars_zero]
  have hle : n ≤ 10 ^ ds.length * n := Nat.le_mul_of_pos_left n (Nat.pow_pos (by decide))
  exact Nat.le_add_right_of_le hle

theorem leading_map_digitValue {ds : List Char} {acc : Nat}
    (h : Nat.ofDigitChars 10 ds acc < UInt64.size) :
    Literal.leading acc (ds.map digitValue) = (Nat.ofDigitChars 10 ds acc, 0) := by
  induction ds generalizing acc with
  | nil => rfl
  | cons c ds ih =>
    rw [Nat.ofDigitChars_cons] at h
    have hacc : acc * 10 + digitValue c < UInt64.size := by
      rw [digitValue, Nat.mul_comm]
      exact Nat.lt_of_le_of_lt (le_ofDigitChars _ ds) h
    rw [List.map_cons, Literal.leading, if_pos hacc, Nat.ofDigitChars_cons, Nat.mul_comm acc]
    exact ih h

theorem head_toDigits {n : Nat} (h : 0 < n) : (Nat.toDigits 10 n).head? ≠ some '0' := by
  induction n using Nat.base_induction 10 (by decide) with
  | single m hm =>
    rw [Nat.toDigits_of_lt_base hm]
    revert m
    decide
  | digit m k hk hm ih =>
    have hdigits : Nat.toDigits 10 (10 * m + k) = Nat.toDigits 10 m ++ [k.digitChar] := by
      rw [Nat.toDigits_of_base_le (by decide) (by omega)]
      congr <;> omega
    have hne : Nat.toDigits 10 m ≠ [] := Nat.toDigits_ne_nil
    rw [hdigits, List.head?_append, List.head?_eq_some_head hne, Option.some_or,
      ← List.head?_eq_some_head hne]
    exact ih hm

theorem no_leading_zero (n d : Nat) (ds : List Nat) :
    (Nat.toDigits 10 n).map digitValue ≠ 0 :: d :: ds := by
  intro h
  obtain hn | hn := Nat.lt_or_ge n 10
  · simp [Nat.toDigits_of_lt_base hn] at h
  obtain ⟨c, cs, hcs, hc, -⟩ := List.map_eq_cons_iff.1 h
  have hdigit : c.isDigit = true :=
    Nat.isDigit_of_mem_toDigits (by decide) (by decide) (hcs ▸ List.mem_cons_self ..)
  have hle : '0'.toNat ≤ c.toNat := (Char.isDigit_iff_toNat.1 hdigit).1
  have hzero : c = '0' := Char.toNat_inj.1 (by unfold digitValue at hc; omega)
  exact head_toDigits (n := n) (by omega) (by simp [hcs, hzero])

theorem readNumber_of_readDigits {negative : Bool} {cs rest : List Char} {ds : List Nat}
    (hcs : readDigits cs = (ds, rest)) (hne : ds ≠ []) (hzero : ∀ d ds', ds ≠ 0 :: d :: ds')
    (hrest : EndsNumber rest) :
    readNumber negative cs = (.number ⟨negative, ds, [], none⟩, some rest) := by
  unfold readNumber
  rw [hcs]
  split
  · rename_i heq
    exact absurd (Prod.mk.inj heq).1 hne
  · rename_i heq
    exact absurd (Prod.mk.inj heq).1 (hzero _ _)
  · rename_i heq
    obtain ⟨rfl, rfl⟩ := heq
    split
    · exact absurd rfl (hrest _ _ rfl).2.1
    · exact absurd rfl (hrest _ _ rfl).2.2.1
    · exact absurd rfl (hrest _ _ rfl).2.2.2
    · rfl

def Literal.ofInt (n : Int) : Literal :=
  ⟨n < 0, (Nat.toDigits 10 n.natAbs).map digitValue, [], none⟩

theorem readNumber_toDigits (n : Int) {rest : List Char} (hrest : EndsNumber rest) :
    readNumber (n < 0) (Nat.toDigits 10 n.natAbs ++ rest) = (.number (.ofInt n), some rest) := by
  have hdigits : ∀ c ∈ Nat.toDigits 10 n.natAbs, c.isDigit = true := fun _ =>
    Nat.isDigit_of_mem_toDigits (by decide) (by decide)
  exact readNumber_of_readDigits (readDigits_append hdigits hrest)
    (by simp [Nat.toDigits_ne_nil]) (no_leading_zero n.natAbs) hrest

theorem Literal.number?_ofInt {n : Nat} (hn : n < UInt64.size) :
    (Literal.ofInt n).number? = some (.whole n) := by
  have hdigits : Nat.ofDigitChars 10 (Nat.toDigits 10 n) 0 = n := Nat.ofDigitChars_ten_toDigits
  have hvalue : leading 0 ((Nat.toDigits 10 n).map digitValue) = (n, 0) := by
    rw [leading_map_digitValue (by rwa [hdigits]), hdigits]
  simp [ofInt, number?, hvalue]

end Turnpike.Json
