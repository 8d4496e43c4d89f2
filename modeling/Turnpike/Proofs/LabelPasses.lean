import Mathlib.Tactic.Common
import Turnpike.CommandLine

/-!
The labels of an application as a map. The keys of its identity, its location and its group are
never empty and never meet. The metadata of its service are passed on as they are, so registration
is a map just when none of their keys is one of those; the labels for policies, without metadata,
always are.
-/

namespace Turnpike

namespace Command

variable {name : String} {v : Json} {ms : List (String × Json)} {labels : List (String × String)}

theorem setMember_of_not_mem (h : name ∉ ms.map (·.1)) :
    setMember name v ms = ms ++ [(name, v)] := by
  induction ms with
  | nil => rfl
  | cons m ms ih =>
    obtain ⟨hne, hms⟩ : name ≠ m.1 ∧ name ∉ ms.map (·.1) := by simpa using h
    rw [setMember, if_neg (Ne.symm hne), ih hms, List.cons_append]

theorem setMember_of_mem (h : name ∈ ms.map (·.1)) :
    (setMember name v ms).map (·.1) = ms.map (·.1) := by
  induction ms with
  | nil => cases h
  | cons m ms ih =>
    rw [setMember]
    split
    · rfl
    · rename_i hne
      have hms := (List.mem_cons.1 h).resolve_left (Ne.symm hne)
      rw [List.map_cons, List.map_cons, ih hms]

theorem nodup_setMember (h : (ms.map (·.1)).Nodup) : ((setMember name v ms).map (·.1)).Nodup := by
  by_cases hmem : name ∈ ms.map (·.1)
  · rwa [setMember_of_mem hmem]
  · rw [setMember_of_not_mem hmem, List.map_append]
    exact (List.perm_append_singleton ..).nodup_iff.2 (List.nodup_cons.2 ⟨hmem, h⟩)

def asMember (label : String × String) : String × Json := (label.1, .str label.2)

def collected (ms : List (String × Json)) (labels : List (String × String)) :
    List (String × Json) :=
  labels.foldl (fun ms label => setMember label.1 (.str label.2) ms) ms

theorem labelObject_eq (labels : List (String × String)) :
    labelObject labels = .obj (collected [] labels) :=
  rfl

theorem nodup_collected (h : (ms.map (·.1)).Nodup) : ((collected ms labels).map (·.1)).Nodup := by
  induction labels generalizing ms with
  | nil => exact h
  | cons label labels ih => exact ih (nodup_setMember h)

theorem collected_of_nodup (h : (ms.map (·.1) ++ labels.map (·.1)).Nodup) :
    collected ms labels = ms ++ labels.map asMember := by
  induction labels generalizing ms with
  | nil => exact (List.append_nil ms).symm
  | cons label labels ih =>
    -- A key that is new goes to the end, and the keys after it are still new then.
    have hnew : label.1 ∉ ms.map (·.1) := fun hmem =>
      (List.nodup_append.1 h).2.2 _ hmem _ (List.mem_cons_self ..) rfl
    have hrest : ((ms ++ [asMember label]).map (·.1) ++ labels.map (·.1)).Nodup := by
      rwa [List.map_append, List.append_assoc]
    calc collected ms (label :: labels)
      _ = collected (setMember label.1 (.str label.2) ms) labels := rfl
      _ = collected (ms ++ [asMember label]) labels := by rw [setMember_of_not_mem hnew, asMember]
      _ = ms ++ (label :: labels).map asMember := by rw [ih hrest, List.append_assoc]; rfl

theorem labelObject_eq_iff :
    labelObject labels = .obj (labels.map asMember) ↔ (labels.map (·.1)).Nodup := by
  rw [labelObject_eq]
  constructor
  · intro h
    have hnodup : ((collected [] labels).map (·.1)).Nodup := nodup_collected List.nodup_nil
    rw [Json.obj.inj h, List.map_map] at hnodup
    exact hnodup
  · intro h
    have hall : collected [] labels = [] ++ labels.map asMember := collected_of_nodup h
    exact congrArg Json.obj hall

end Command

theorem Label.keys_given_sublist (key : String) (value : Option String) :
    ((given key value).map (·.1)).Sublist [key] := by
  cases value with
  | none => exact List.nil_sublist _
  | some value => exact List.Sublist.refl _

namespace Location

def labelKeys : List String :=
  [Label.cloud, Label.region, Label.zone, Label.cluster] ++
    [Label.liveSpaceId, Label.ruleId, Label.unit, Label.cell] ++ [Label.laneSpaceId, Label.lane]

theorem keys_labels_sublist (l : Location) : (l.labels.map (·.1)).Sublist labelKeys := by
  have hgiven := Label.keys_given_sublist
  simp only [labels, List.map_append]
  refine (List.Sublist.append ?_ ?_).append ?_
  · simp only [zoneLabels, List.map_append]
    exact (((hgiven ..).append (hgiven ..)).append (hgiven ..)).append (hgiven ..)
  · unfold liveLabels
    split
    · exact List.nil_sublist _
    · simp only [List.map_append]
      exact (((hgiven ..).append (hgiven ..)).append (hgiven ..)).append (hgiven ..)
  · unfold laneLabels
    split
    · exact List.nil_sublist _
    · simp only [List.map_append]
      exact (hgiven ..).append (hgiven ..)

end Location

namespace Application

variable (a : Application)

def placeLabels : List (String × String) := a.identityLabels ++ a.locationLabels

def ownLabels : List (String × String) :=
  a.placeLabels ++ Label.given Label.serviceGroup (a.service.bind (·.group))

def serviceMetadata : Dict String String := a.service.elim .empty (·.metadata)

theorem registryLabels_eq : a.registryLabels = a.ownLabels ++ a.serviceMetadata.entries := by
  unfold registryLabels serviceLabels ownLabels placeLabels serviceMetadata
  cases a.service with
  | none => simp [Label.given, Dict.empty]
  | some s => simp

def placeKeys : List String := [Label.application, Label.instanceId] ++ Location.labelKeys

theorem keys_placeLabels_sublist : (a.placeLabels.map (·.1)).Sublist placeKeys := by
  rw [placeLabels, List.map_append]
  refine List.Sublist.append (List.Sublist.refl _) ?_
  unfold locationLabels
  cases a.location with
  | none => exact List.nil_sublist _
  | some l => exact l.keys_labels_sublist

theorem keys_ownLabels_sublist :
    (a.ownLabels.map (·.1)).Sublist (placeKeys ++ [Label.serviceGroup]) := by
  rw [ownLabels, List.map_append]
  exact a.keys_placeLabels_sublist.append (Label.keys_given_sublist ..)

theorem keys_syncLabels_sublist :
    (a.syncLabels.map (·.1)).Sublist (placeKeys ++ [Label.instanceIp] ++ [Label.agentVersion]) := by
  simp only [syncLabels, List.map_append]
  rw [← List.map_append]
  exact (a.keys_placeLabels_sublist.append (Label.keys_given_sublist ..)).append
    (Label.keys_given_sublist ..)

theorem nodup_keys_ownLabels : (a.ownLabels.map (·.1)).Nodup :=
  a.keys_ownLabels_sublist.nodup (by decide)

theorem key_ownLabels_ne_empty : ∀ k ∈ a.ownLabels.map (·.1), k ≠ "" := by
  have hkeys : ∀ k ∈ placeKeys ++ [Label.serviceGroup], k ≠ "" := by decide
  exact fun k hk => hkeys k (a.keys_ownLabels_sublist.subset hk)

theorem nodup_keys_syncLabels : (a.syncLabels.map (·.1)).Nodup :=
  a.keys_syncLabels_sublist.nodup (by decide)

theorem key_syncLabels_ne_empty : ∀ k ∈ a.syncLabels.map (·.1), k ≠ "" := by
  have hkeys : ∀ k ∈ placeKeys ++ [Label.instanceIp] ++ [Label.agentVersion], k ≠ "" := by decide
  exact fun k hk => hkeys k (a.keys_syncLabels_sublist.subset hk)

theorem keys_registryLabels :
    a.registryLabels.map (·.1) = a.ownLabels.map (·.1) ++ a.serviceMetadata.keys := by
  rw [registryLabels_eq, List.map_append, Dict.keys]

theorem nodup_keys_registryLabels_iff : (a.registryLabels.map (·.1)).Nodup ↔
    ∀ k ∈ a.serviceMetadata.keys, k ∉ a.ownLabels.map (·.1) := by
  rw [keys_registryLabels, List.nodup_append]
  constructor
  · rintro ⟨-, -, hne⟩ k hk hmem
    exact hne k hmem k hk rfl
  · intro h
    refine ⟨a.nodup_keys_ownLabels, a.serviceMetadata.nodup_keys, ?_⟩
    rintro k hmem _ hk rfl
    exact h k hk hmem

/--
The labels for policies have keys that are neither empty nor used twice, and a map keeps them all in
their order. Those of registration are the application's own, of which the same is true, and then
the metadata of its service as they are. They make a map just when no key of the metadata is the
key of one of the others, and no key is empty if none of the metadata is.
-/
theorem label_passes_collected (a : Application) :
    (∀ k ∈ a.syncLabels.map (·.1), k ≠ "") ∧ (a.syncLabels.map (·.1)).Nodup ∧
    Command.labelObject a.syncLabels = .obj (a.syncLabels.map Command.asMember) ∧
    a.registryLabels = a.ownLabels ++ a.serviceMetadata.entries ∧
    (∀ k ∈ a.ownLabels.map (·.1), k ≠ "") ∧ (a.ownLabels.map (·.1)).Nodup ∧
    ((∀ k ∈ a.serviceMetadata.keys, k ≠ "") → ∀ k ∈ a.registryLabels.map (·.1), k ≠ "") ∧
    ((a.registryLabels.map (·.1)).Nodup ↔
      ∀ k ∈ a.serviceMetadata.keys, k ∉ a.ownLabels.map (·.1)) ∧
    (Command.labelObject a.registryLabels = .obj (a.registryLabels.map Command.asMember) ↔
      ∀ k ∈ a.serviceMetadata.keys, k ∉ a.ownLabels.map (·.1)) := by
  refine ⟨a.key_syncLabels_ne_empty, a.nodup_keys_syncLabels,
    Command.labelObject_eq_iff.2 a.nodup_keys_syncLabels, a.registryLabels_eq,
    a.key_ownLabels_ne_empty, a.nodup_keys_ownLabels, fun h k hk => ?_,
    a.nodup_keys_registryLabels_iff,
    Command.labelObject_eq_iff.trans a.nodup_keys_registryLabels_iff⟩
  rw [keys_registryLabels] at hk
  rcases List.mem_append.1 hk with hk | hk
  · exact a.key_ownLabels_ne_empty k hk
  · exact h k hk

/-- Metadata under the key of the application's name take the place of that name. -/
theorem metadata_in_place_of_name :
    let a : Application := {
      name := "order", instanceId := some ⟨⟨List.replicate 16 0, rfl⟩⟩
      service := some { metadata := Dict.ofList [("application", "shop")] } }
    ¬(a.registryLabels.map (·.1)).Nodup ∧
      Command.labelObject a.registryLabels = .obj [("application", .str "shop"),
        ("instance", .str "inst_00000000-0000-0000-0000-000000000000")] := by
  intro a
  have hlabels : a.registryLabels = [("application", "order"),
      ("instance", "inst_00000000-0000-0000-0000-000000000000"), ("application", "shop")] := by
    decide
  rw [hlabels]
  exact ⟨by decide, rfl⟩

end Application

end Turnpike
