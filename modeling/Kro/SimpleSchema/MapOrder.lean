import Kro.SimpleSchema.Defaults

/-!
# The order in which Go visits the maps

Go visits a map in an order it picks afresh on every run, so `buildSchema` may see the fields
of every map of the tree, at every depth, in any order.  This file compares two such runs:

* `Spec.Reordered` — the tree with every map listed in some other order;
* `SchemaEquiv` — two schemas with the same nodes at every path of property names, each node
  the same apart from the order of its `Required` list (properties are maps, compared name by
  name through the paths);
* `buildSchema_reordered` — **PROVED**: on a tree whose maps have distinct keys, reordering
  the maps keeps whether `buildSchema` succeeds, and the two schemas are equivalent;
* `buildSchema_required_order` — the `Required` list itself follows the order of the map.
-/

namespace Kro.SimpleSchema

open Kro.Go

/-! ### Reordered trees -/

mutual
/-- `b` is the tree `a` with every map, at every depth, listed in some order: `a`'s fields,
their values reordered, permuted.  A leaf is unchanged. -/
def Spec.Reordered : Spec → Spec → Prop
  | .obj fs, .obj gs => ∃ hs, Spec.FieldsReordered fs hs ∧ hs.Perm gs
  | a, b => a = b

/-- The same names in the same order, each value reordered. -/
def Spec.FieldsReordered : List (String × Spec) → List (String × Spec) → Prop
  | [], [] => True
  | (n, a) :: fs, (m, b) :: hs => n = m ∧ a.Reordered b ∧ Spec.FieldsReordered fs hs
  | _, _ => False
end

namespace Spec.FieldsReordered

theorem keys {fs hs : List (String × Spec)} (h : Spec.FieldsReordered fs hs) :
    hs.map Prod.fst = fs.map Prod.fst := by
  induction fs generalizing hs with
  | nil => cases hs <;> simp_all [Spec.FieldsReordered]
  | cons f fs ih =>
    obtain ⟨n, a⟩ := f
    cases hs with
    | nil => cases h
    | cons g hs => obtain ⟨rfl, -, h⟩ := h; simp [ih h]

theorem exists_left {fs hs : List (String × Spec)} (h : Spec.FieldsReordered fs hs)
    {n : String} {a : Spec} (hm : (n, a) ∈ fs) : ∃ b, (n, b) ∈ hs ∧ a.Reordered b := by
  induction fs generalizing hs with
  | nil => cases hm
  | cons f fs ih =>
    obtain ⟨n', a'⟩ := f
    cases hs with
    | nil => cases h
    | cons g hs =>
      obtain ⟨m, b'⟩ := g
      obtain ⟨rfl, hab, h⟩ := h
      rcases List.mem_cons.mp hm with he | hm
      · cases he; exact ⟨b', .head _, hab⟩
      · obtain ⟨b, hb, hab⟩ := ih h hm
        exact ⟨b, .tail _ hb, hab⟩

theorem exists_right {fs hs : List (String × Spec)} (h : Spec.FieldsReordered fs hs)
    {n : String} {b : Spec} (hm : (n, b) ∈ hs) : ∃ a, (n, a) ∈ fs ∧ a.Reordered b := by
  induction fs generalizing hs with
  | nil => cases hs <;> simp_all [Spec.FieldsReordered]
  | cons f fs ih =>
    obtain ⟨n', a'⟩ := f
    cases hs with
    | nil => cases h
    | cons g hs =>
      obtain ⟨m, b'⟩ := g
      obtain ⟨rfl, hab, h⟩ := h
      rcases List.mem_cons.mp hm with he | hm
      · cases he; exact ⟨a', .head _, hab⟩
      · obtain ⟨a, ha, hab⟩ := ih h hm
        exact ⟨a, .tail _ ha, hab⟩

end Spec.FieldsReordered

/-! ### Equivalent schemas -/

/-- A node of a schema apart from its children and its `Required` list. -/
def JSONSchemaProps.node (s : JSONSchemaProps) : JSONSchemaProps :=
  { s with required := [], properties := [] }

/-- Two nodes, or two absences of one: the same node up to the order of `Required`. -/
def NodeAgree : Option JSONSchemaProps → Option JSONSchemaProps → Prop
  | none, none => True
  | some a, some b => a.node = b.node ∧ a.required.Perm b.required
  | _, _ => False

/-- Two schemas with the same nodes at every path of property names. -/
def SchemaEquiv (A B : JSONSchemaProps) : Prop :=
  ∀ path, NodeAgree (A.atPath path) (B.atPath path)

theorem SchemaEquiv.refl (A : JSONSchemaProps) : SchemaEquiv A A := fun path => by
  cases A.atPath path <;> simp [NodeAgree]

theorem SchemaEquiv.default_isSome {A B : JSONSchemaProps} (h : SchemaEquiv A B) :
    A.default.isSome = B.default.isSome :=
  congrArg (fun s => s.default.isSome) (h []).1

/-- Two runs agree: both fail, or both succeed with results related by `E`. -/
def RunsAgree {α : Type} (E : α → α → Prop) (x y : Except GoError α) : Prop :=
  ((∃ a, x = .ok a) ↔ ∃ b, y = .ok b) ∧ ∀ a b, x = .ok a → y = .ok b → E a b

theorem RunsAgree.refl {α : Type} {E : α → α → Prop} (hE : ∀ a, E a a) (x : Except GoError α) :
    RunsAgree E x x :=
  ⟨Iff.rfl, fun a b ha hb => by rw [ha] at hb; cases hb; exact hE a⟩

theorem RunsAgree.map {α β : Type} {E : α → α → Prop} {E' : β → β → Prop} {f : α → β}
    {x y : Except GoError α} (h : RunsAgree E x y) (hf : ∀ a b, E a b → E' (f a) (f b)) :
    RunsAgree E' (x.map f) (y.map f) := by
  refine ⟨by rw [except_map_isOk, except_map_isOk]; exact h.1, fun a b ha hb => ?_⟩
  obtain ⟨a', ha', rfl⟩ := except_map_eq_ok.mp ha
  obtain ⟨b', hb', rfl⟩ := except_map_eq_ok.mp hb
  exact hf a' b' (h.2 a' b' ha' hb')

/-! ### One field, one map -/

section Reordered

variable {Ty : Type} (lib : GoLib) (fe : Frontend Ty) (t : Transformer)

theorem fieldRequired_reordered {a b : Spec} (hab : a.Reordered b) (name : String) :
    fieldRequired lib fe t name a = fieldRequired lib fe t name b := by
  cases a <;> cases b <;> simp_all [Spec.Reordered, fieldRequired]

theorem Spec.FieldsReordered.flatMap_fieldRequired {fs hs : List (String × Spec)}
    (h : Spec.FieldsReordered fs hs) :
    (fs.flatMap fun f => fieldRequired lib fe t f.1 f.2) =
      hs.flatMap fun f => fieldRequired lib fe t f.1 f.2 := by
  induction fs generalizing hs with
  | nil => cases hs <;> simp_all [Spec.FieldsReordered]
  | cons f fs ih =>
    cases hs with
    | nil => cases h
    | cons g hs =>
      obtain ⟨hn, hab, h⟩ := h
      simp only [List.flatMap_cons, hn, fieldRequired_reordered lib fe t hab, ih h]

/-- A field whose value is reordered: a leaf gives the same run; a map gives what the map's
runs give. -/
theorem fieldResult_reordered {a b : Spec} (hab : a.Reordered b) (name : String)
    (hobj : ∀ fs gs, a = .obj fs → b = .obj gs →
      RunsAgree SchemaEquiv (buildSchema lib fe t fs) (buildSchema lib fe t gs)) :
    RunsAgree (fun r r' => SchemaEquiv r.1 r'.1)
      (fieldResult lib fe t name a) (fieldResult lib fe t name b) := by
  cases a with
  | obj fs =>
    cases b with
    | obj gs =>
      rw [fieldResult_obj, fieldResult_obj]
      exact (hobj fs gs rfl rfl).map fun _ _ h => h
    | _ => cases hab
  | _ => cases hab; exact .refl (fun r => .refl r.1) _

/-- The fields of two reordered maps: each field's runs agree. -/
def FieldsAgree (fs gs : List (String × Spec)) : Prop :=
  ∃ hs, Spec.FieldsReordered fs hs ∧ hs.Perm gs ∧ ∀ {n a b}, (n, a) ∈ fs → a.Reordered b →
    RunsAgree (fun r r' => SchemaEquiv r.1 r'.1) (fieldResult lib fe t n a) (fieldResult lib fe t n b)

section Agree

variable {lib fe t} {fs gs : List (String × Spec)}

theorem FieldsAgree.ok_iff (h : FieldsAgree lib fe t fs gs) :
    (∀ f ∈ fs, ∃ r, fieldResult lib fe t f.1 f.2 = .ok r) ↔
      ∀ g ∈ gs, ∃ r, fieldResult lib fe t g.1 g.2 = .ok r := by
  obtain ⟨hs, hfh, hperm, hfield⟩ := h
  constructor
  · intro hok g hg
    obtain ⟨a, ha, hab⟩ := hfh.exists_right (hperm.mem_iff.mpr hg)
    exact (hfield ha hab).1.mp (hok _ ha)
  · intro hok f hf
    obtain ⟨b, hb, hab⟩ := hfh.exists_left hf
    exact (hfield hf hab).1.mpr (hok _ (hperm.mem_iff.mp hb))

theorem FieldsAgree.default_iff (h : FieldsAgree lib fe t fs gs) :
    (∃ n a r, (n, a) ∈ fs ∧ fieldResult lib fe t n a = .ok r ∧ r.1.default.isSome) ↔
      ∃ n b r, (n, b) ∈ gs ∧ fieldResult lib fe t n b = .ok r ∧ r.1.default.isSome := by
  obtain ⟨hs, hfh, hperm, hfield⟩ := h
  constructor
  · rintro ⟨n, a, r, ha, hr, hd⟩
    obtain ⟨b, hb, hab⟩ := hfh.exists_left ha
    obtain ⟨r', hr'⟩ := (hfield ha hab).1.mp ⟨r, hr⟩
    refine ⟨n, b, r', hperm.mem_iff.mp hb, hr', ?_⟩
    rwa [← ((hfield ha hab).2 r r' hr hr').default_isSome]
  · rintro ⟨n, b, r', hb, hr', hd⟩
    obtain ⟨a, ha, hab⟩ := hfh.exists_right (hperm.mem_iff.mpr hb)
    obtain ⟨r, hr⟩ := (hfield ha hab).1.mpr ⟨r', hr'⟩
    refine ⟨n, a, r, ha, hr, ?_⟩
    rwa [((hfield ha hab).2 r r' hr hr').default_isSome]

end Agree

/-- Apart from its children and `Required`, the object of a map is `objectSchema`, with the
default `{}` when it has one. -/
theorem buildSchema_node {fs : List (String × Spec)} {S : JSONSchemaProps} (h : buildSchema lib fe t fs = .ok S) :
    S.node = (withChildDefault objectSchema S.default.isSome).node := by
  obtain ⟨rs, hrs, rfl⟩ := buildSchema_ok lib fe t h
  cases hb : (assemble (objectSchema, false) rs).2 <;>
    simp [withChildDefault, hb, assemble_fst, JSONSchemaProps.node, objectSchema,
      JSONSchemaProps.empty]

/-- **The schema does not depend on the order of the maps**, up to the order of `Required`:
on a tree whose maps have distinct keys, `buildSchema` succeeds on a reordering of the tree
exactly when it succeeds on the tree, and then the two schemas have the same nodes at every
path of property names, each `Required` list a permutation of the other. -/
theorem buildSchema_reordered {fs gs : List (String × Spec)} (hwf : (Spec.obj fs).WF)
    (hr : (Spec.obj fs).Reordered (.obj gs)) :
    RunsAgree SchemaEquiv (buildSchema lib fe t fs) (buildSchema lib fe t gs) := by
  obtain ⟨hnd, hsub⟩ := (Spec.wf_obj fs).mp hwf
  obtain ⟨hs, hfh, hperm⟩ := hr
  have hfield : ∀ {n a b}, (n, a) ∈ fs → a.Reordered b → RunsAgree (fun r r' => SchemaEquiv r.1 r'.1)
      (fieldResult lib fe t n a) (fieldResult lib fe t n b) := fun {n a b} hm hab =>
    fieldResult_reordered lib fe t hab n fun sub sub' ha hb => by
      subst ha hb
      have hlt := List.sizeOf_lt_of_mem hm
      exact buildSchema_reordered (hsub _ hm) hab
  have hagree : FieldsAgree lib fe t fs gs := ⟨hs, hfh, hperm, hfield⟩
  have hkeys : (gs.map Prod.fst).Perm (fs.map Prod.fst) := hfh.keys ▸ (hperm.map Prod.fst).symm
  refine ⟨by rw [buildSchema_isOk, buildSchema_isOk]; exact hagree.ok_iff, fun S S' h h' => ?_⟩
  rintro (_ | ⟨name, path⟩)
  · have hdef : S.default.isSome = S'.default.isSome := by
      rw [Bool.eq_iff_iff, (buildSchema_default lib fe t h).2, (buildSchema_default lib fe t h').2]
      exact hagree.default_iff
    obtain ⟨rs, hrs, rfl⟩ := buildSchema_ok lib fe t h
    obtain ⟨rs', hrs', rfl⟩ := buildSchema_ok lib fe t h'
    refine ⟨by rw [buildSchema_node lib fe t h, buildSchema_node lib fe t h', hdef], ?_⟩
    simp only [withChildDefault_required, assemble_fst, objectSchema, JSONSchemaProps.empty_required,
      List.nil_append, fieldResults_required lib fe t hrs, fieldResults_required lib fe t hrs',
      hfh.flatMap_fieldRequired lib fe t]
    exact hperm.flatMap_right _
  · by_cases hn : name ∈ fs.map Prod.fst
    · obtain ⟨⟨_, a⟩, ha, rfl⟩ := List.mem_map.mp hn
      obtain ⟨b, hb, hab⟩ := hfh.exists_left ha
      obtain ⟨r, hr, hp⟩ := buildSchema_atPath_cons lib fe t hnd h ha
      obtain ⟨r', hr', hp'⟩ :=
        buildSchema_atPath_cons lib fe t (hkeys.nodup_iff.mpr hnd) h' (hperm.mem_iff.mp hb)
      rw [hp, hp']
      exact (hfield ha hab).2 r r' hr hr' path
    · rw [buildSchema_atPath_not_mem lib fe t h hn,
        buildSchema_atPath_not_mem lib fe t h' (by rwa [hkeys.mem_iff])]
      trivial
termination_by sizeOf fs
decreasing_by all_goals simp_wf; simp at hlt; omega

end Reordered

/-- `{a: "string | required=true", m: {x: "integer | default=1", y: "string"}}`, with both maps
visited the other way round. -/
theorem buildSchema_reordered_sample :
    (Spec.obj [("a", .str "string | required=true"),
      ("m", .obj [("x", .str "integer | default=1"), ("y", .str "string")])]).WF ∧
    (Spec.obj [("a", .str "string | required=true"),
      ("m", .obj [("x", .str "integer | default=1"), ("y", .str "string")])]).Reordered
      (.obj [("m", .obj [("y", .str "string"), ("x", .str "integer | default=1")]),
        ("a", .str "string | required=true")]) ∧
    RunsAgree SchemaEquiv
      (buildSchema GoLib.minimal specFrontend ⟨[]⟩ [("a", .str "string | required=true"),
        ("m", .obj [("x", .str "integer | default=1"), ("y", .str "string")])])
      (buildSchema GoLib.minimal specFrontend ⟨[]⟩
        [("m", .obj [("y", .str "string"), ("x", .str "integer | default=1")]),
          ("a", .str "string | required=true")]) := by
  have hwf : (Spec.obj [("a", .str "string | required=true"),
      ("m", .obj [("x", .str "integer | default=1"), ("y", .str "string")])]).WF := by decide
  have hr : (Spec.obj [("a", .str "string | required=true"),
      ("m", .obj [("x", .str "integer | default=1"), ("y", .str "string")])]).Reordered
      (.obj [("m", .obj [("y", .str "string"), ("x", .str "integer | default=1")]),
        ("a", .str "string | required=true")]) :=
    ⟨[("a", .str "string | required=true"),
      ("m", .obj [("y", .str "string"), ("x", .str "integer | default=1")])],
      ⟨rfl, rfl, rfl, ⟨[("x", .str "integer | default=1"), ("y", .str "string")],
        ⟨rfl, rfl, rfl, rfl, trivial⟩, .swap _ _ _⟩, trivial⟩, .swap _ _ _⟩
  exact ⟨hwf, hr, buildSchema_reordered GoLib.minimal specFrontend ⟨[]⟩ hwf hr⟩

/-- Visiting a map of two required fields in the two orders gives two `Required` lists. -/
theorem buildSchema_required_order :
    ¬ ∀ fs gs : List (String × Spec), (Spec.obj fs).WF → (Spec.obj fs).Reordered (.obj gs) →
      (buildSchema GoLib.minimal specFrontend ⟨[]⟩ fs).map (·.required) =
        (buildSchema GoLib.minimal specFrontend ⟨[]⟩ gs).map (·.required) := fun h => by
  have := h [("a", .str "string | required=true"), ("b", .str "string | required=true")]
    [("b", .str "string | required=true"), ("a", .str "string | required=true")] (by decide)
    ⟨[("a", .str "string | required=true"), ("b", .str "string | required=true")],
      ⟨rfl, rfl, rfl, rfl, trivial⟩, .swap _ _ _⟩
  exact absurd this (by decide)

end Kro.SimpleSchema
