import Mathlib.Data.Option.Basic
import Mathlib.Tactic.Common
import Turnpike.Uuid

/-!
The texts of identifiers. An identifier is read from its thirty-two digits or from its canonical
groups, and the groups may stand between braces or behind `urn:uuid:`; that of an instance may have
its mark in front. The digits may be of either case. These are all the texts that are read, and each
is read as one identifier.
-/

namespace Turnpike

/-! ### Digits -/

theorem toNat_toLower (c : Char) :
    c.toLower.toNat = if 65 ≤ c.toNat ∧ c.toNat ≤ 90 then c.toNat + 32 else c.toNat := by
  have hval : c.val.toNat = c.toNat := rfl
  unfold Char.toLower
  split
  · rename_i h
    have hrange : 65 ≤ c.toNat ∧ c.toNat ≤ 90 := by
      simpa [UInt32.le_iff_toNat_le, hval] using h
    rw [if_pos hrange]
    show (c.val + 32).toNat = c.toNat + 32
    rw [UInt32.toNat_add, hval, show (32 : UInt32).toNat = 32 from rfl]
    exact Nat.mod_eq_of_lt (by omega)
  · rename_i h
    have hrange : ¬(65 ≤ c.toNat ∧ c.toNat ≤ 90) := by
      simpa [UInt32.le_iff_toNat_le, hval] using h
    rw [if_neg hrange]

theorem toLower_eq_hyphen_iff {c : Char} : c.toLower = '-' ↔ c = '-' := by
  rw [← Char.toNat_inj, ← Char.toNat_inj, toNat_toLower]
  have hhyphen : '-'.toNat = 45 := rfl
  split <;> omega

namespace Uuid

theorem toNat_hexChar {n : Nat} (h : n < 16) :
    (hexChar n).toNat = if n < 10 then 48 + n else 87 + n := by
  revert n
  decide

theorem hexDigit?_eq_some_iff {c : Char} {n : Nat} :
    Json.hexDigit? c = some n ↔ n < 16 ∧ c.toLower = hexChar n := by
  have hle (a b : Char) : a ≤ b ↔ a.toNat ≤ b.toNat := UInt32.le_iff_toNat_le
  have hlower : n < 16 → (c.toLower = hexChar n ↔
      (if 65 ≤ c.toNat ∧ c.toNat ≤ 90 then c.toNat + 32 else c.toNat) =
        if n < 10 then 48 + n else 87 + n) := fun h => by
    rw [← Char.toNat_inj, toNat_toLower, toNat_hexChar h]
  rw [and_congr_right hlower]
  simp only [Json.hexDigit?, hle, Char.reduceToNat]
  grind

theorem hexDigits?_eq_some_iff {a b : Char} {byte : UInt8} :
    (∃ x, Json.hexDigit? a = some x ∧ ∃ y, Json.hexDigit? b = some y ∧
      UInt8.ofNat (x * 16 + y) = byte) ↔ [a, b].map Char.toLower = hexByte byte := by
  simp only [hexDigit?_eq_some_iff, hexByte, List.map_cons, List.map_nil, List.cons.injEq, and_true]
  constructor
  · rintro ⟨x, ⟨hx, ha⟩, y, ⟨hy, hb⟩, rfl⟩
    have htoNat : (UInt8.ofNat (x * 16 + y)).toNat = x * 16 + y :=
      UInt8.toNat_ofNat_of_lt' (by simp only [UInt8.size]; omega)
    rw [htoNat, ha, hb]
    constructor <;> congr 1 <;> omega
  · rintro ⟨ha, hb⟩
    have hlt : byte.toNat < 256 := byte.toNat_lt
    refine ⟨byte.toNat / 16, ⟨by omega, ha⟩, byte.toNat % 16, ⟨by omega, hb⟩, ?_⟩
    rw [Nat.div_add_mod' byte.toNat 16, UInt8.ofNat_toNat]

theorem readBytes_eq_some_iff : ∀ {cs : List Char} {bytes : List UInt8},
    readBytes cs = some bytes ↔ cs.map Char.toLower = bytes.flatMap hexByte
  | [], [] => by simp [readBytes]
  | [], _ :: _ => by simp [readBytes, hexByte]
  | [_], [] => by simp [readBytes]
  | [_], _ :: _ => by simp [readBytes, hexByte]
  | a :: b :: cs, [] => by simp [readBytes, Option.bind_eq_some_iff]
  | a :: b :: cs, byte :: bytes => by
    have hpair : (a :: b :: cs).map Char.toLower = (byte :: bytes).flatMap hexByte ↔
        [a, b].map Char.toLower = hexByte byte ∧ cs.map Char.toLower = bytes.flatMap hexByte :=
      ⟨fun h => List.append_inj h rfl, fun ⟨hbyte, hbytes⟩ => congrArg₂ (· ++ ·) hbyte hbytes⟩
    rw [hpair, ← hexDigits?_eq_some_iff, ← readBytes_eq_some_iff]
    simp only [readBytes, Option.bind_eq_bind, Option.bind_eq_some_iff, Option.pure_def,
      Option.some.injEq, List.cons.injEq]
    constructor
    · rintro ⟨x, hx, y, hy, bs, hbs, rfl, rfl⟩
      exact ⟨⟨x, hx, y, hy, rfl⟩, hbs⟩
    · rintro ⟨⟨x, hx, y, hy, rfl⟩, hbs⟩
      exact ⟨x, hx, y, hy, bytes, hbs, rfl, rfl⟩

/-! ### Groups -/

theorem split_of_drop {c : Char} {n : Nat} {cs rest : List Char} (h : cs.drop n = c :: rest) :
    cs = cs.take n ++ c :: rest ∧ (cs.take n).length = n := by
  refine ⟨by rw [← h, List.take_append_drop], ?_⟩
  have hlen := congrArg List.length h
  simp only [List.length_drop, List.length_cons] at hlen
  rw [List.length_take]
  omega

theorem hyphenate_cons {n : Nat} {ns : List Nat} (hns : ns ≠ []) {ds : List Char}
    (h : ds.length = n) (es : List Char) :
    hyphenate (n :: ns) (ds ++ es) = ds ++ '-' :: hyphenate ns es := by
  obtain ⟨m, ns, rfl⟩ := List.exists_cons_of_ne_nil hns
  rw [hyphenate, List.take_left' h, List.drop_left' h]
  exact List.cons_ne_nil m ns

theorem unhyphenate?_eq_some_iff {ns : List Nat} {cs ds : List Char} :
    unhyphenate? ns cs = some ds ↔ cs = hyphenate ns ds ∧ ds.length = ns.foldr (· + ·) 0 := by
  fun_induction unhyphenate? ns cs generalizing ds with
  | case1 cs h =>
    obtain rfl := List.isEmpty_iff.1 h
    cases ds <;> simp [hyphenate]
  | case2 cs h => simp_all [hyphenate]
  | case3 cs =>
    constructor
    · rintro ⟨⟩
      simp [hyphenate]
    · rintro ⟨hcs, hlen⟩
      simp_all [hyphenate, List.take_of_length_le]
  | case4 n cs h =>
    simp only [reduceCtorEq, hyphenate, List.foldr_cons, List.foldr_nil, false_iff]
    rintro ⟨rfl, hlen⟩
    exact h (by rw [List.length_take]; omega)
  | case5 n ns cs hns rest hdrop ih =>
    -- A hyphen stands right behind the first group.
    obtain ⟨hcs, hlen⟩ := split_of_drop hdrop
    simp only [Option.map_eq_some_iff, ih, List.foldr_cons]
    constructor
    · rintro ⟨ds, ⟨rfl, hds⟩, rfl⟩
      rw [hyphenate_cons hns hlen, List.length_append, hlen, hds]
      exact ⟨hcs, rfl⟩
    · rintro ⟨heq, hds⟩
      have hhead : (ds.take n).length = n := by rw [List.length_take]; omega
      have hsplit := hyphenate_cons hns hhead (ds.drop n)
      rw [List.take_append_drop, ← heq, hcs] at hsplit
      obtain ⟨htake, hrest⟩ := List.append_inj hsplit (hlen.trans hhead.symm)
      refine ⟨ds.drop n, ⟨(List.cons.inj hrest).2, by rw [List.length_drop]; omega⟩, ?_⟩
      rw [htake, List.take_append_drop]
  | case6 n ns cs hns hdrop =>
    simp only [reduceCtorEq, List.foldr_cons, false_iff]
    rintro ⟨heq, hds⟩
    have hhead : (ds.take n).length = n := by rw [List.length_take]; omega
    have hsplit := hyphenate_cons hns hhead (ds.drop n)
    rw [List.take_append_drop, ← heq] at hsplit
    exact hdrop _ (by rw [hsplit, List.drop_left' hhead])

theorem unhyphenate?_cons {n : Nat} {ns : List Nat} (hns : ns ≠ []) (cs : List Char) :
    unhyphenate? (n :: ns) cs = match cs.drop n with
      | '-' :: rest => (unhyphenate? ns rest).map (cs.take n ++ ·)
      | _ => none := by
  obtain ⟨m, ns, rfl⟩ := List.exists_cons_of_ne_nil hns
  rfl

theorem unhyphenate?_map {f : Char → Char} (hf : ∀ c, f c = '-' ↔ c = '-') (ns : List Nat)
    (cs : List Char) : unhyphenate? ns (cs.map f) = (unhyphenate? ns cs).map (·.map f) := by
  fun_induction unhyphenate? ns cs with
  | case1 cs h => simp_all [unhyphenate?]
  | case2 cs h => simp_all [unhyphenate?]
  | case3 cs => simp [unhyphenate?]
  | case4 n cs h => simp [unhyphenate?, h]
  | case5 n ns cs hns rest hdrop ih =>
    have hmap : (cs.map f).drop n = '-' :: rest.map f := by
      rw [← List.map_drop, hdrop, List.map_cons, (hf _).2 rfl]
    rw [unhyphenate?_cons hns, hmap]
    simp [ih, Function.comp_def]
  | case6 n ns cs hns hdrop =>
    rw [unhyphenate?_cons hns, ← List.map_drop]
    split
    · rename_i rest hmap
      obtain ⟨c, cs', hcs, hc, -⟩ := List.map_eq_cons_iff.1 hmap
      exact (hdrop cs' (by rw [hcs, (hf c).1 hc])).elim
    · rfl

/-! ### Identifiers -/

variable {u : Uuid} {cs : List Char}

@[simp] theorem length_hexByte (b : UInt8) : (hexByte b).length = 2 := rfl

theorem length_hex (u : Uuid) : u.hex.length = 32 := by
  simp [hex, List.length_flatMap, List.map_const', u.length_eq]

theorem length_text (u : Uuid) : u.text.length = 36 := by
  simp [text, hyphenate, groups, u.length_hex]

theorem ofBytes?_eq_some_iff {bytes : List UInt8} : ofBytes? bytes = some u ↔ bytes = u.bytes := by
  obtain ⟨expected, hlen⟩ := u
  unfold ofBytes?
  split
  · simp
  · rename_i hne
    simp only [reduceCtorEq, false_iff]
    rintro rfl
    exact hne hlen

theorem ofHex?_eq_some_iff : ofHex? cs = some u ↔ cs.map Char.toLower = u.hex := by
  simp [ofHex?, Option.bind_eq_some_iff, readBytes_eq_some_iff, ofBytes?_eq_some_iff, hex]

theorem ofHyphenated?_eq_some_iff : ofHyphenated? cs = some u ↔ cs.map Char.toLower = u.text := by
  calc ofHyphenated? cs = some u
      ↔ ∃ ds, unhyphenate? groups cs = some ds ∧ ds.map Char.toLower = u.hex := by
        simp only [ofHyphenated?, Option.bind_eq_bind, Option.bind_eq_some_iff, ofHex?_eq_some_iff]
    _ ↔ unhyphenate? groups (cs.map Char.toLower) = some u.hex := by
        rw [unhyphenate?_map (fun _ => toLower_eq_hyphen_iff), Option.map_eq_some_iff]
    _ ↔ cs.map Char.toLower = u.text := by
        have hsum : groups.foldr (· + ·) 0 = 32 := rfl
        simp only [unhyphenate?_eq_some_iff, hsum, u.length_hex, and_true, text]

theorem after?_eq_some_iff {head rest : List Char} :
    after? head cs = some rest ↔ cs = head ++ rest := by
  fun_induction after? head cs with
  | case1 cs => simp
  | case2 h hs => simp
  | case3 h hs cs ih => simp [ih]
  | case4 h hs c cs hne => simp [Ne.symm hne]

def ofBraced? : List Char → Option Uuid
  | '{' :: rest => if rest.getLast? = some '}' then ofHyphenated? rest.dropLast else none
  | _ => none

def ofUrn? (cs : List Char) : Option Uuid := after? urnHead cs >>= ofHyphenated?

theorem ofText?_eq (cs : List Char) :
    ofText? cs = (ofHex? cs <|> ofHyphenated? cs <|> ofBraced? cs <|> ofUrn? cs) :=
  rfl

theorem ofBraced?_eq_some_iff : ofBraced? cs = some u ↔
    ∃ inner, cs = '{' :: inner ++ ['}'] ∧ inner.map Char.toLower = u.text := by
  unfold ofBraced?
  split
  · rename_i rest
    split
    · rename_i hlast
      obtain ⟨inner, rfl⟩ := List.getLast?_eq_some_iff.1 hlast
      simp [ofHyphenated?_eq_some_iff]
    · rename_i hlast
      simp only [reduceCtorEq, false_iff]
      rintro ⟨inner, hinner, -⟩
      exact hlast (List.getLast?_eq_some_iff.2 ⟨inner, (List.cons.inj hinner).2⟩)
  · rename_i hbrace
    simp only [reduceCtorEq, false_iff]
    rintro ⟨inner, rfl, -⟩
    exact hbrace _ rfl

theorem ofUrn?_eq_some_iff : ofUrn? cs = some u ↔
    ∃ inner, cs = urnHead ++ inner ∧ inner.map Char.toLower = u.text := by
  simp only [ofUrn?, Option.bind_eq_bind, Option.bind_eq_some_iff, after?_eq_some_iff,
    ofHyphenated?_eq_some_iff]

/-- The texts of an identifier: its digits, or its groups, alone, between braces or in a name. -/
inductive Spelled (u : Uuid) : List Char → Prop
  | digits {cs : List Char} (h : cs.map Char.toLower = u.hex) : u.Spelled cs
  | grouped {cs : List Char} (h : cs.map Char.toLower = u.text) : u.Spelled cs
  | braced {cs : List Char} (h : cs.map Char.toLower = u.text) : u.Spelled ('{' :: cs ++ ['}'])
  | urn {cs : List Char} (h : cs.map Char.toLower = u.text) : u.Spelled (urnHead ++ cs)

theorem spelled_iff : u.Spelled cs ↔ ofHex? cs = some u ∨ ofHyphenated? cs = some u ∨
    ofBraced? cs = some u ∨ ofUrn? cs = some u := by
  rw [ofHex?_eq_some_iff, ofHyphenated?_eq_some_iff, ofBraced?_eq_some_iff, ofUrn?_eq_some_iff]
  constructor
  · rintro (h | h | h | h)
    · exact .inl h
    · exact .inr (.inl h)
    · exact .inr (.inr (.inl ⟨_, rfl, h⟩))
    · exact .inr (.inr (.inr ⟨_, rfl, h⟩))
  · rintro (h | h | ⟨inner, rfl, h⟩ | ⟨inner, rfl, h⟩)
    · exact .digits h
    · exact .grouped h
    · exact .braced h
    · exact .urn h

theorem length_of_map {cs ds : List Char} (h : cs.map Char.toLower = ds) :
    cs.length = ds.length := by
  rw [← h, List.length_map]

theorem length_of_ofHex? (h : ofHex? cs = some u) : cs.length = 32 := by
  rw [length_of_map (ofHex?_eq_some_iff.1 h), u.length_hex]

theorem length_of_ofHyphenated? (h : ofHyphenated? cs = some u) : cs.length = 36 := by
  rw [length_of_map (ofHyphenated?_eq_some_iff.1 h), u.length_text]

theorem length_of_ofBraced? (h : ofBraced? cs = some u) : cs.length = 38 := by
  obtain ⟨inner, rfl, hinner⟩ := ofBraced?_eq_some_iff.1 h
  simp [length_of_map hinner, u.length_text]

theorem length_of_ofUrn? (h : ofUrn? cs = some u) : cs.length = 45 := by
  obtain ⟨inner, rfl, hinner⟩ := ofUrn?_eq_some_iff.1 h
  simp [length_of_map hinner, u.length_text, urnHead]

theorem eq_none_of_length {read : List Char → Option Uuid} {n : Nat}
    (hread : ∀ {cs u}, read cs = some u → cs.length = n) (h : cs.length ≠ n) : read cs = none :=
  Option.eq_none_iff_forall_ne_some.2 fun _ hu => h (hread hu)

theorem ofText?_eq_some_iff : ofText? cs = some u ↔ u.Spelled cs := by
  rw [spelled_iff, ofText?_eq]
  simp only [Option.orElse_eq_some]
  constructor
  · rintro (h | ⟨-, h | ⟨-, h | ⟨-, h⟩⟩⟩)
    · exact .inl h
    · exact .inr (.inl h)
    · exact .inr (.inr (.inl h))
    · exact .inr (.inr (.inr h))
  · rintro (h | h | h | h)
    · exact .inl h
    · have hlen := length_of_ofHyphenated? h
      exact .inr ⟨eq_none_of_length length_of_ofHex? (by omega), .inl h⟩
    · have hlen := length_of_ofBraced? h
      exact .inr ⟨eq_none_of_length length_of_ofHex? (by omega),
        .inr ⟨eq_none_of_length length_of_ofHyphenated? (by omega), .inl h⟩⟩
    · have hlen := length_of_ofUrn? h
      exact .inr ⟨eq_none_of_length length_of_ofHex? (by omega),
        .inr ⟨eq_none_of_length length_of_ofHyphenated? (by omega),
          .inr ⟨eq_none_of_length length_of_ofBraced? (by omega), h⟩⟩⟩

/-! ### The mark -/

theorem exists_of_mem_hyphenate {ns : List Nat} {ds : List Char} {c : Char}
    (h : c ∈ hyphenate ns ds) : c ∈ ds ∨ c = '-' := by
  fun_induction hyphenate ns ds with
  | case1 => cases h
  | case2 n ds => exact .inl (List.mem_of_mem_take h)
  | case3 n ns ds hns ih =>
    rcases List.mem_append.1 h with h | h
    · exact .inl (List.mem_of_mem_take h)
    · rcases List.mem_cons.1 h with rfl | h
      · exact .inr rfl
      · exact (ih h).imp_left List.mem_of_mem_drop

theorem exists_of_mem_hex {c : Char} (h : c ∈ u.hex) : ∃ n < 16, c = hexChar n := by
  obtain ⟨b, -, hb⟩ := List.mem_flatMap.1 h
  have hlt : b.toNat < 256 := b.toNat_lt
  rcases List.mem_cons.1 hb with rfl | hb
  · exact ⟨_, by omega, rfl⟩
  · obtain rfl := List.mem_singleton.1 hb
    exact ⟨_, by omega, rfl⟩

theorem map_toLower_text (u : Uuid) : u.text.map Char.toLower = u.text := by
  have hdigit : ∀ n < 16, (hexChar n).toLower = hexChar n := by decide
  refine (List.map_congr_left fun c hc => ?_).trans (List.map_id _)
  rcases exists_of_mem_hyphenate hc with hc | rfl
  · obtain ⟨n, hn, rfl⟩ := exists_of_mem_hex hc
    exact hdigit n hn
  · rfl

theorem not_mem_hex (u : Uuid) : 'i' ∉ u.hex := by
  have hdigit : ∀ n < 16, 'i' ≠ hexChar n := by decide
  intro h
  obtain ⟨n, hn, heq⟩ := exists_of_mem_hex h
  exact hdigit n hn heq

theorem not_mem_text (u : Uuid) : 'i' ∉ u.text := by
  intro h
  rcases exists_of_mem_hyphenate h with h | h
  · exact u.not_mem_hex h
  · cases h

theorem Spelled.ne_cons (h : u.Spelled cs) (rest : List Char) : cs ≠ 'i' :: rest := by
  rintro rfl
  have hmem : 'i' ∈ ('i' :: rest).map Char.toLower := List.mem_cons_self ..
  generalize hcs : 'i' :: rest = cs at h hmem
  cases h with
  | digits h => exact u.not_mem_hex (h ▸ hmem)
  | grouped h => exact u.not_mem_text (h ▸ hmem)
  | braced h => cases hcs
  | urn h => cases hcs

end Uuid

namespace InstanceId

variable {i : InstanceId} {cs : List Char}

inductive Spelled (i : InstanceId) : List Char → Prop
  | bare {cs : List Char} (h : i.uuid.Spelled cs) : i.Spelled cs
  | marked {cs : List Char} (h : i.uuid.Spelled cs) : i.Spelled (mark ++ cs)

theorem ofText?_eq_some_iff : ofText? cs = some i ↔ i.Spelled cs := by
  have hread (cs : List Char) : (Uuid.ofText? cs).map mk = some i ↔ i.uuid.Spelled cs := by
    rw [← Uuid.ofText?_eq_some_iff, Option.map_eq_some_iff]
    constructor
    · rintro ⟨u, hu, rfl⟩
      exact hu
    · intro hu
      exact ⟨_, hu, rfl⟩
  unfold ofText?
  cases hmark : Uuid.after? mark cs with
  | none =>
    rw [Option.getD_none, hread]
    constructor
    · exact .bare
    · rintro (h | h)
      · exact h
      · cases hmark.symm.trans (Uuid.after?_eq_some_iff.2 rfl)
  | some rest =>
    obtain rfl := Uuid.after?_eq_some_iff.1 hmark
    rw [Option.getD_some, hread]
    constructor
    · exact .marked
    · intro h
      -- Only the text behind the mark can be one of an identifier, as none begins like the mark.
      generalize hcs : mark ++ rest = cs at h
      cases h with
      | bare h => exact (h.ne_cons _ hcs.symm).elim
      | marked h => exact List.append_cancel_left hcs ▸ h

/--
An identifier is read back from the text that shows it, with the mark or without. In all, it is read
from just those texts that spell it.
-/
theorem read_iff_spelled (i : InstanceId) (s : String) :
    ofText? (toString i).toList = some i ∧ ofText? (toString i.uuid).toList = some i ∧
      (ofText? s.toList = some i ↔ i.Spelled s.toList) := by
  have hshown : (toString i).toList = mark ++ i.uuid.text := String.toList_ofList
  have hbare : (toString i.uuid).toList = i.uuid.text := String.toList_ofList
  have hspelled : i.uuid.Spelled i.uuid.text := .grouped i.uuid.map_toLower_text
  rw [hshown, hbare, ofText?_eq_some_iff, ofText?_eq_some_iff, ofText?_eq_some_iff]
  exact ⟨.marked hspelled, .bare hspelled, Iff.rfl⟩

end InstanceId

end Turnpike
