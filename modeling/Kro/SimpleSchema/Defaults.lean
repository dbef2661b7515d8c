import Kro.SimpleSchema.BuildFields

/-!
# Defaults propagate through nested objects

`buildSchema` gives an object the default `{}` when one of its fields has a schema with a
default.  A nested map is such a field exactly when its own object got `{}`, so by induction
on the tree an object has the default `{}` exactly when some string field below it, reached
through nested maps only, has a default.
-/

namespace Kro.SimpleSchema

open Kro.Go

/-- A path, through nested maps, to a string field. -/
inductive StringField : List (String × Spec) → List String → Prop
  | here {fs : List (String × Spec)} {name s : String} : (name, .str s) ∈ fs →
      StringField fs [name]
  | under {fs sub : List (String × Spec)} {name : String} {path : List String} :
      (name, .obj sub) ∈ fs → StringField sub path → StringField fs (name :: path)

/-- A path, through nested maps, to the nested map `node`. -/
inductive MapAt : List (String × Spec) → List String → List (String × Spec) → Prop
  | root {fs : List (String × Spec)} : MapAt fs [] fs
  | under {fs sub node : List (String × Spec)} {name : String} {path : List String} :
      (name, .obj sub) ∈ fs → MapAt sub path node → MapAt fs (name :: path) node

section Defaults

variable {Ty : Type} (lib : GoLib) (fe : Frontend Ty) (t : Transformer)

/-- The object of a map has a default, and it is `{}`, when one of its fields' schemas has a
default. -/
theorem buildSchema_default {fs : List (String × Spec)} {S : JSONSchemaProps}
    (h : buildSchema lib fe t fs = .ok S) :
    (S.default = some "{}".toList ↔ S.default.isSome) ∧
      (S.default.isSome ↔ ∃ name spec r, (name, spec) ∈ fs ∧
        fieldResult lib fe t name spec = .ok r ∧ r.1.default.isSome) := by
  obtain ⟨rs, hrs, rfl⟩ := buildSchema_ok lib fe t h
  obtain ⟨-, hmem⟩ := fieldResults_ok lib fe t hrs
  have hd : (assemble (objectSchema, false) rs).1.default = none := by
    simp [assemble_fst, objectSchema, JSONSchemaProps.empty]
  refine ⟨by unfold withChildDefault; split <;> simp [hd], ?_⟩
  unfold withChildDefault
  split
  · rename_i hb
    simp only [assemble_snd, Bool.false_or, List.any_eq_true] at hb
    obtain ⟨r, hr, hrd⟩ := hb
    obtain ⟨spec, hs, hfr⟩ := (hmem r).mp hr
    simp only [Option.isSome_some, true_iff]
    exact ⟨r.1, spec, r.2, hs, hfr, hrd⟩
  · rename_i hb
    simp only [hd, Option.isSome_none, Bool.false_eq_true, false_iff, not_exists, not_and]
    intro name spec r hs hfr hrd
    apply hb
    simp only [assemble_snd, Bool.false_or, List.any_eq_true]
    exact ⟨(name, r), (hmem (name, r)).mpr ⟨spec, hs, hfr⟩, hrd⟩

theorem buildSchema_default_root (fs : List (String × Spec)) (S : JSONSchemaProps)
    (hwf : (Spec.obj fs).WF) (h : buildSchema lib fe t fs = .ok S) :
    S.default = some "{}".toList ↔
      ∃ path D, StringField fs path ∧ S.atPath path = some D ∧ D.default.isSome := by
  obtain ⟨hnd, hsub⟩ := (Spec.wf_obj fs).mp hwf
  rw [(buildSchema_default lib fe t h).1, (buildSchema_default lib fe t h).2]
  constructor
  · rintro ⟨name, spec, r, hs, hfr, hrd⟩
    obtain ⟨r', hfr', hpath⟩ := buildSchema_atPath_cons lib fe t hnd h hs
    rw [hfr] at hfr'
    cases hfr'
    cases spec with
    | str v => exact ⟨[name], r.1, .here hs, by rw [hpath]; rfl, hrd⟩
    | obj sub =>
      rw [fieldResult_obj] at hfr
      obtain ⟨F, hF, rfl⟩ := except_map_eq_ok.mp hfr
      have hlt := List.sizeOf_lt_of_mem hs
      obtain ⟨q, D, hq, hD, hDd⟩ := (buildSchema_default_root sub F (hsub _ hs) hF).mp
        ((buildSchema_default lib fe t hF).1.mpr hrd)
      exact ⟨name :: q, D, .under hs hq, by rw [hpath]; exact hD, hDd⟩
    | other g => simp [fieldResult, buildFieldSchema, fail, Except.map] at hfr
  · rintro ⟨path, D, hpath, hD, hDd⟩
    cases hpath with
    | @here _ name s hs =>
      obtain ⟨r, hfr, hp⟩ := buildSchema_atPath_cons lib fe t hnd h hs
      rw [hp, JSONSchemaProps.atPath] at hD
      cases hD
      exact ⟨name, _, r, hs, hfr, hDd⟩
    | @under _ sub name q hs hq =>
      obtain ⟨r, hfr, hp⟩ := buildSchema_atPath_cons lib fe t hnd h hs
      rw [fieldResult_obj] at hfr
      obtain ⟨F, hF, rfl⟩ := except_map_eq_ok.mp hfr
      rw [hp] at hD
      have hlt := List.sizeOf_lt_of_mem hs
      have := (buildSchema_default_root sub F (hsub _ hs) hF).mpr ⟨q, D, hq, hD, hDd⟩
      exact ⟨name, _, (F, []), hs, by rw [fieldResult_obj, hF]; rfl, by simp [this]⟩
termination_by sizeOf fs
decreasing_by all_goals simp_wf; simp at hlt; omega

/-- **Defaults propagate through every nested map**: in the schema `buildSchema` builds for a
tree, the object of any nested map — the root included — has the default `{}` exactly when
some string field below it, reached through nested maps only, has a schema with a default. -/
theorem buildSchema_default_iff {fs : List (String × Spec)} {S : JSONSchemaProps}
    (hwf : (Spec.obj fs).WF) (h : buildSchema lib fe t fs = .ok S) {path : List String}
    {node : List (String × Spec)} (hn : MapAt fs path node) :
    ∃ N, S.atPath path = some N ∧ (N.default = some "{}".toList ↔
      ∃ q D, StringField node q ∧ S.atPath (path ++ q) = some D ∧ D.default.isSome) := by
  induction hn generalizing S with
  | root => exact ⟨S, rfl, buildSchema_default_root lib fe t _ S hwf h⟩
  | @under fs sub node name path hs _ ih =>
    obtain ⟨hnd, hsub⟩ := (Spec.wf_obj fs).mp hwf
    obtain ⟨r, hfr, hp⟩ := buildSchema_atPath_cons lib fe t hnd h hs
    rw [fieldResult_obj] at hfr
    obtain ⟨F, hF, rfl⟩ := except_map_eq_ok.mp hfr
    simpa only [List.cons_append, hp] using ih (hsub _ hs) hF

end Defaults

/-- `spec: {spec: {replicas: "integer | default=3"}}`, at the nested map `spec`. -/
theorem buildSchema_default_iff_sample :
    ∃ S, (Spec.obj [("spec", .obj [("replicas", .str "integer | default=3")])]).WF ∧
      buildSchema GoLib.minimal specFrontend ⟨[]⟩
        [("spec", .obj [("replicas", .str "integer | default=3")])] = .ok S ∧
      MapAt [("spec", .obj [("replicas", .str "integer | default=3")])] ["spec"]
        [("replicas", .str "integer | default=3")] ∧
      ∃ N, S.atPath ["spec"] = some N ∧ (N.default = some "{}".toList ↔
        ∃ q D, StringField [("replicas", .str "integer | default=3")] q ∧
          S.atPath (["spec"] ++ q) = some D ∧ D.default.isSome) := by
  obtain ⟨S, h⟩ : ∃ S, buildSchema GoLib.minimal specFrontend ⟨[]⟩
      [("spec", .obj [("replicas", .str "integer | default=3")])] = .ok S := ⟨_, rfl⟩
  have hwf : (Spec.obj [("spec", .obj [("replicas", .str "integer | default=3")])]).WF := by decide
  have hn : MapAt [("spec", .obj [("replicas", .str "integer | default=3")])] ["spec"]
      [("replicas", .str "integer | default=3")] := .under (List.mem_singleton_self _) .root
  exact ⟨S, hwf, h, hn, buildSchema_default_iff GoLib.minimal specFrontend ⟨[]⟩ hwf h hn⟩

end Kro.SimpleSchema
