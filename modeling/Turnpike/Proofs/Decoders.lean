import Turnpike.Dict
import Turnpike.Proofs.Layouts
import Mathlib.Data.List.Basic
import Mathlib.Data.List.Nodup

namespace Turnpike

namespace Json

variable {α β : Type} {item : Doc → Except Problem α} {v : Json} {a : α}

structure ReadsAs (item : Doc → Except Problem α) (v : Json) (a : α) : Prop where
  plain : v.Plain
  decodes : item v.doc = .ok a

namespace ReadsAs

theorem decodeText [Decode α] (h : ReadsAs decode v a) : decodeText α (pretty v) = .ok a := by
  simp only [Json.decodeText, h.plain.ofText_pretty, h.decodes]
  rfl

theorem map (g : α → β) (h : ReadsAs item v a) : ReadsAs (fun d => g <$> item d) v (g a) :=
  ⟨h.plain, by rw [h.decodes]; rfl⟩

theorem string (s : String) : ReadsAs decode (toJson s) s := ⟨.str s, rfl⟩

theorem nat {n : Nat} (h : n < UInt64.size) : ReadsAs decode (toJson n) n := by
  refine ⟨.int n, ?_⟩
  have hrange : 0 ≤ (n : Int) ∧ (n : Int) < UInt64.size := ⟨by omega, by exact_mod_cast h⟩
  change (Doc.number (.ofInt n)).asWord "u64" UInt64.size = .ok n
  simp only [Doc.asWord, Literal.number?_ofInt h, if_pos hrange, Int.toNat_natCast]

theorem uint64 (n : UInt64) : ReadsAs decode (toJson n) n := by
  have h := (nat n.toNat_lt_size).map UInt64.ofNat
  rwa [UInt64.ofNat_toNat] at h

section Variants

variable {variants : List (String × Variant α)} {name : String}

theorem plainVariant (h : variants.lookup name = some (.plain a)) :
    ReadsAs (Variant.decode variants) (.str name) a := by
  refine ⟨.str name, ?_⟩
  simp [doc, Variant.decode, Variant.ofName, h, bind, Except.bind, pure, Except.pure]

theorem carrying {content : Doc → Except Problem α}
    (hname : variants.lookup name = some (.carrying content)) (h : ReadsAs content v a) :
    ReadsAs (Variant.decode variants) (.tagged name v) a := by
  refine ⟨.obj (by simpa using h.plain), ?_⟩
  simp [tagged, doc_obj, Doc.ofMembers, Variant.decode, Variant.key, Variant.ofName, hname,
    h.decodes, proceed, bind, Except.bind, pure, Except.pure]

end Variants

end ReadsAs

namespace Doc

variable {ms : List (String × Json)}

theorem member?_doc (hnodup : (ms.map (·.1)).Nodup) {m : String × Json} (hm : m ∈ ms) :
    (Json.obj ms).doc.member? m.1 = some m.2.doc := by
  rw [doc_obj]
  induction ms with
  | nil => cases hm
  | cons n ms ih =>
    obtain ⟨hnew, hnodup⟩ := List.nodup_cons.1 hnodup
    rcases List.mem_cons.1 hm with rfl | hm
    · simp [ofMembers, member?]
    · have hne : n.1 ≠ m.1 := fun h => hnew (List.mem_map.2 ⟨m, hm, h.symm⟩)
      simpa [ofMembers, member?, hne] using ih hnodup hm

theorem mapM_map_eq_ok {ε : Type} {f : β → Except ε α} {g : α → β} {l : List α}
    (h : ∀ a ∈ l, f (g a) = .ok a) : (l.map g).mapM f = .ok l := by
  induction l with
  | nil => rfl
  | cons a l ih =>
    obtain ⟨ha, hl⟩ := List.forall_mem_cons.1 h
    rw [List.map_cons, List.mapM_cons, ha, ih hl]
    rfl

theorem asMembers_doc {print : α → Json} {entries : List (String × α)}
    (h : ∀ p ∈ entries, ReadsAs item (print p.2) p.2) :
    (Json.obj (entries.map fun p => (p.1, print p.2))).doc.asMembers item = .ok entries := by
  rw [doc_obj]
  simp only [ofMembers, asMembers, List.map_map]
  rw [mapM_map_eq_ok]
  · rfl
  · intro p hp
    simp [Key.read, (h p hp).decodes, bind, Except.bind, pure, Except.pure]

end Doc

namespace Fields

/--
Members that are all fields of a record and nothing else, each with a value that its field takes.
They build the record however they are found.
-/
structure Accepts (f : Fields α) (ms : List (String × Json)) (a : α) : Prop where
  names : f.names = ms.map (·.1)
  nodup : (ms.map (·.1)).Nodup
  plain : ∀ m ∈ ms, m.2.Plain
  check : ∀ m ∈ ms, f.check m.1 m.2.doc = .ok ()
  build : ∀ find : String → Option Doc, (∀ m ∈ ms, find m.1 = some m.2.doc) → f.build find = .ok a

namespace Accepts

variable {f : Fields (α → β)} {g : α → β} {ms : List (String × Json)} {name : String}
  {absent short : Option α}

theorem one (h : ReadsAs item v a) :
    (Fields.one name item absent short).Accepts [(name, v)] a where
  names := rfl
  nodup := List.nodup_singleton _
  plain := by simpa using h.plain
  check := by simp [Fields.one, h.decodes, Except.map]
  build find hfind := by simp [Fields.one, hfind (name, v) (by simp), h.decodes]

theorem value (a : α) : (Fields.value a).Accepts [] a where
  names := rfl
  nodup := List.nodup_nil
  plain := nofun
  check := nofun
  build _ _ := rfl

theorem and (hf : f.Accepts ms g) (h : ReadsAs item v a) (hnew : name ∉ ms.map (·.1)) :
    (f.and (.one name item absent short)).Accepts (ms ++ [(name, v)]) (g a) where
  names := by simp [Fields.and, Fields.one, hf.names]
  nodup := by
    rw [List.map_append]
    exact hf.nodup.append (List.nodup_singleton _) (by simpa [List.disjoint_singleton] using hnew)
  plain := List.forall_mem_append.2 ⟨hf.plain, by simpa using h.plain⟩
  check m hm := by
    rcases List.mem_append.1 hm with hm | hm
    · have hname : m.1 ∈ f.names := hf.names ▸ List.mem_map_of_mem hm
      simp only [Fields.and, if_pos hname, hf.check m hm]
    · obtain rfl := List.mem_singleton.1 hm
      have hname : name ∉ f.names := hf.names ▸ hnew
      simp only [Fields.and, if_neg hname]
      exact (one h).check _ (List.mem_singleton_self _)
  build find hfind := by
    obtain ⟨hms, hlast⟩ := List.forall_mem_append.1 hfind
    simp only [Fields.and, hf.build find hms, (one h).build find hlast]
    rfl

theorem walk {f : Fields α} (hnames : ∀ m ∈ ms, m.1 ∈ f.names)
    (hcheck : ∀ m ∈ ms, f.check m.1 m.2.doc = .ok ()) (hnodup : (ms.map (·.1)).Nodup)
    (seen : List String) (hseen : ∀ m ∈ ms, m.1 ∉ seen) :
    f.walk seen (ms.map fun m => (.text (some m.1), m.2.doc)) = .ok () := by
  induction ms generalizing seen with
  | nil => rfl
  | cons m ms ih =>
    obtain ⟨hname, hnames⟩ := List.forall_mem_cons.1 hnames
    obtain ⟨hok, hcheck⟩ := List.forall_mem_cons.1 hcheck
    obtain ⟨hnew, hnodup⟩ := List.nodup_cons.1 hnodup
    obtain ⟨hunseen, hseen⟩ := List.forall_mem_cons.1 hseen
    have hseen' : ∀ n ∈ ms, n.1 ∉ m.1 :: seen := by
      intro n hn hmem
      rcases List.mem_cons.1 hmem with heq | hmem
      · exact hnew (List.mem_map.2 ⟨n, hn, heq⟩)
      · exact hseen n hn hmem
    simpa [Fields.walk, Key.read, hname, hunseen, hok, bind, Except.bind, pure, Except.pure]
      using ih hnames hcheck hnodup _ hseen'

theorem decode {f : Fields α} (h : f.Accepts ms a) (record : String) :
    ReadsAs (f.decode record) (.obj ms) a := by
  refine ⟨.obj h.plain, ?_⟩
  have hwalk := walk (fun m hm => h.names ▸ List.mem_map_of_mem hm) h.check h.nodup [] (by simp)
  have hbuild := h.build (fun name => (Json.obj ms).doc.member? name)
    fun m hm => Doc.member?_doc h.nodup hm
  have hobj : (Json.obj ms).doc = .obj (ms.map fun m => (.text (some m.1), m.2.doc)) none := by
    simp [doc_obj, Doc.ofMembers]
  rw [hobj] at hbuild ⊢
  simp only [Fields.decode, hwalk, proceed]
  exact hbuild

end Accepts

end Fields

end Json

namespace Dict

section

variable {κ α : Type} [LT κ] [LE κ] [Std.LawfulOrderLT κ]
  [Std.IsLinearOrder κ] [DecidableEq κ] [DecidableLT κ]

theorem ofList_entries (d : Dict κ α) : Dict.ofList d.entries = d := by
  have hperm := entries_ofList_perm d.nodup_keys
  refine Dict.ext (hperm.eq_of_pairwise (fun _ _ _ _ hlt hgt => ?_) (ofList _).ascending d.ascending)
  exact absurd (Std.lt_trans hlt hgt) Std.lt_irrefl

end

open Json (Decode ReadsAs decode)

theorem readsAs {α : Type} [ToJson α] [Decode α] {d : Dict String α}
    (h : ∀ a ∈ d.values, ReadsAs decode (toJson a) a) : ReadsAs decode (toJson d) d := by
  have hentries : ∀ p ∈ d.entries, ReadsAs decode (toJson p.2) p.2 := fun p hp =>
    h p.2 (List.mem_map_of_mem hp)
  refine ⟨.obj (List.forall_mem_map.2 fun p hp => (hentries p hp).plain), ?_⟩
  change ofList <$> (Json.obj (d.entries.map fun p => (p.1, toJson p.2))).doc.asMembers decode = _
  rw [Json.Doc.asMembers_doc hentries]
  exact congrArg Except.ok d.ofList_entries

end Dict

end Turnpike
