import Kro.SimpleSchema.Types

/-!
# What `buildSchema` builds

A field's schema does not depend on the object it is built into: the object only gains the
names the field adds to its `Required` list (`buildFieldSchema_parent`).  So each field has a
result of its own, and `buildSchema` folds the results into the object in the order the map
is visited (`buildFields_eq`): each result sets the field's schema under its name, appends its
names to `Required`, and raises `childHasDefault` when the field's schema has a default.
-/

namespace Kro.SimpleSchema

open Kro.Go

section Fields

variable {Ty : Type} (lib : GoLib) (fe : Frontend Ty) (t : Transformer)

theorem buildFieldFromString_parent (name v : String) (p : JSONSchemaProps) :
    buildFieldFromString lib fe t name v p = (buildFieldFromString lib fe t name v .empty).map
      fun r => (r.1, { p with required := p.required ++ r.2.required }) := by
  unfold buildFieldFromString
  cases fe.parseField v with
  | error e => rfl
  | ok tm =>
    obtain ⟨typ, markers⟩ := tm
    simp only [bind, Except.bind]
    cases fe.schema typ t.resolve with
    | error e => rfl
    | ok schema =>
      simp only
      cases fe.asCustom typ with
      | none => exact applyMarkers_parent_indep lib schema markers name p
      | some c =>
        simp only
        cases t.isRequired c
        · exact applyMarkers_parent_indep lib schema markers name p
        · simp only [if_true]
          rw [applyMarkers_parent_indep lib schema markers name
              { p with required := p.required ++ [name] },
            applyMarkers_parent_indep lib schema markers name
              { JSONSchemaProps.empty with required := JSONSchemaProps.empty.required ++ [name] }]
          cases applyMarkers lib schema markers name .empty <;> simp [Except.map]

/-- **A field is built the same into any object**, which gains only the names the field adds
to `Required`. -/
theorem buildFieldSchema_parent (name : String) (spec : Spec) (p : JSONSchemaProps) :
    buildFieldSchema lib fe t name spec p = (buildFieldSchema lib fe t name spec .empty).map
      fun r => (r.1, { p with required := p.required ++ r.2.required }) := by
  cases spec with
  | str v => exact buildFieldFromString_parent lib fe t name v p
  | obj fs =>
    simp only [buildFieldSchema]
    cases buildFields lib fe t objectSchema false fs <;> cases p <;>
      simp [Except.map, Except.bind, bind, pure, Except.pure]
  | other g => rfl

/-- A field's schema and the names it adds to its object's `Required` list. -/
def fieldResult (name : String) (spec : Spec) : Except GoError (JSONSchemaProps × List String) :=
  (buildFieldSchema lib fe t name spec .empty).map fun r => (r.1, r.2.required)

theorem buildFieldSchema_eq (name : String) (spec : Spec) (p : JSONSchemaProps) :
    buildFieldSchema lib fe t name spec p = (fieldResult lib fe t name spec).map
      fun r => (r.1, { p with required := p.required ++ r.2 }) := by
  rw [buildFieldSchema_parent, fieldResult]
  cases buildFieldSchema lib fe t name spec .empty <;> rfl

theorem fieldResult_obj (name : String) (fs : List (String × Spec)) :
    fieldResult lib fe t name (.obj fs) = (buildSchema lib fe t fs).map (·, []) := by
  simp only [fieldResult, buildFieldSchema, buildSchema]
  cases buildFields lib fe t objectSchema false fs <;> rfl

/-- The results of the fields in the order the map is visited; the first error, with its
field's name, ends the list. -/
def fieldResults (fs : List (String × Spec)) :
    Except GoError (List (String × JSONSchemaProps × List String)) :=
  fs.mapM fun f => (wrapErr ("field " ++ f.1 ++ ": ") (fieldResult lib fe t f.1 f.2)).map (f.1, ·)

theorem fieldResults_cons (name : String) (spec : Spec) (fs : List (String × Spec)) :
    fieldResults lib fe t ((name, spec) :: fs) =
      (wrapErr ("field " ++ name ++ ": ") (fieldResult lib fe t name spec)).bind fun r =>
        (fieldResults lib fe t fs).map ((name, r) :: ·) := by
  rw [fieldResults, fieldResults, List.mapM_cons]
  cases wrapErr ("field " ++ name ++ ": ") (fieldResult lib fe t name spec) <;>
    simp only [Except.map, bind, Except.bind]
  cases List.mapM (fun f => (wrapErr ("field " ++ f.1 ++ ": ") (fieldResult lib fe t f.1 f.2)).map
    (f.1, ·)) fs <;> rfl

end Fields

/-- Fold the fields' results into the object: each sets its schema under its name, appends its
names to `Required` and may raise `childHasDefault`. -/
def assemble : JSONSchemaProps × Bool → List (String × JSONSchemaProps × List String) →
    JSONSchemaProps × Bool
  | acc, [] => acc
  | (schema, childHasDefault), (name, field, names) :: rs =>
    assemble ({ schema with
        required := schema.required ++ names
        properties := GoMap.set schema.properties name field },
      childHasDefault || field.default.isSome) rs

section Fields

variable {Ty : Type} (lib : GoLib) (fe : Frontend Ty) (t : Transformer)

/-- **`buildFields` folds the fields' results**, whatever the order. -/
theorem buildFields_eq (schema : JSONSchemaProps) (hd : Bool) (fs : List (String × Spec)) :
    buildFields lib fe t schema hd fs = (fieldResults lib fe t fs).map (assemble (schema, hd)) := by
  induction fs generalizing schema hd with
  | nil => rfl
  | cons f fs ih =>
    obtain ⟨n, sp⟩ := f
    rw [buildFields.eq_2, buildFieldSchema_eq, fieldResults_cons]
    cases fieldResult lib fe t n sp with
    | error e => rfl
    | ok r =>
      simp only [wrapErr, Except.map, bind, Except.bind]
      rw [ih]
      cases fieldResults lib fe t fs <;> rfl

theorem buildSchema_eq (fs : List (String × Spec)) :
    buildSchema lib fe t fs = (fieldResults lib fe t fs).map fun rs =>
      withChildDefault (assemble (objectSchema, false) rs).1
        (assemble (objectSchema, false) rs).2 := by
  rw [buildSchema, buildFields_eq]
  cases fieldResults lib fe t fs <;> rfl

end Fields

/-! ### The folded object -/

theorem assemble_fst (acc : JSONSchemaProps × Bool) (rs : List (String × JSONSchemaProps × List String)) :
    (assemble acc rs).1 = { acc.1 with
      required := acc.1.required ++ rs.flatMap (·.2.2)
      properties := rs.foldl (fun ps r => GoMap.set ps r.1 r.2.1) acc.1.properties } := by
  induction rs generalizing acc with
  | nil => obtain ⟨⟨⟩, _⟩ := acc; simp [assemble]
  | cons r rs ih => obtain ⟨⟨⟩, _⟩ := acc; obtain ⟨n, F, names⟩ := r; simp [assemble, ih]

theorem assemble_snd (acc : JSONSchemaProps × Bool) (rs : List (String × JSONSchemaProps × List String)) :
    (assemble acc rs).2 = (acc.2 || rs.any fun r => r.2.1.default.isSome) := by
  induction rs generalizing acc with
  | nil => simp [assemble]
  | cons r rs ih => obtain ⟨s, hd⟩ := acc; obtain ⟨n, F, names⟩ := r; simp [assemble, ih, Bool.or_assoc]

/-- A later `set` of another key leaves a key's value alone. -/
theorem get_foldl_set_of_not_mem (rs : List (String × JSONSchemaProps × List String))
    (ps : GoMap JSONSchemaProps) {n : String} (h : n ∉ rs.map (·.1)) :
    GoMap.get (rs.foldl (fun ps r => GoMap.set ps r.1 r.2.1) ps) n = GoMap.get ps n := by
  induction rs generalizing ps with
  | nil => rfl
  | cons r rs ih =>
    simp only [List.map_cons, List.mem_cons, not_or] at h
    simp [ih _ h.2, GoMap.get_set, h.1]

theorem get_foldl_set_of_mem {rs : List (String × JSONSchemaProps × List String)}
    (hn : (rs.map (·.1)).Nodup) (ps : GoMap JSONSchemaProps) {r : String × JSONSchemaProps × List String}
    (h : r ∈ rs) : GoMap.get (rs.foldl (fun ps r => GoMap.set ps r.1 r.2.1) ps) r.1 = some r.2.1 := by
  induction rs generalizing ps with
  | nil => cases h
  | cons r' rs ih =>
    simp only [List.map_cons, List.nodup_cons] at hn
    rcases List.mem_cons.mp h with rfl | h
    · simp [get_foldl_set_of_not_mem _ _ hn.1, GoMap.get_set]
    · exact ih hn.2 _ h

/-! ### The results of the fields -/

section Fields

variable {Ty : Type} (lib : GoLib) (fe : Frontend Ty) (t : Transformer)

theorem fieldResults_ok {fs : List (String × Spec)} {rs : List (String × JSONSchemaProps × List String)}
    (h : fieldResults lib fe t fs = .ok rs) :
    rs.map (·.1) = fs.map (·.1) ∧
      ∀ r, r ∈ rs ↔ ∃ spec, (r.1, spec) ∈ fs ∧ fieldResult lib fe t r.1 spec = .ok r.2 := by
  induction fs generalizing rs with
  | nil => cases h; simp
  | cons f fs ih =>
    obtain ⟨n, sp⟩ := f
    rw [fieldResults_cons] at h
    obtain ⟨r, hr, h⟩ := except_bind_eq_ok.mp h
    obtain ⟨rs', hrs', rfl⟩ := except_map_eq_ok.mp h
    rw [wrapErr_ok] at hr
    obtain ⟨ih₁, ih₂⟩ := ih hrs'
    refine ⟨by simp [ih₁], fun x => ?_⟩
    simp only [List.mem_cons, ih₂]
    constructor
    · rintro (rfl | ⟨sp', h₁, h₂⟩)
      · exact ⟨sp, .inl rfl, hr⟩
      · exact ⟨sp', .inr h₁, h₂⟩
    · rintro ⟨sp', h₁ | h₁, h₂⟩
      · cases h₁; rw [hr] at h₂; cases h₂; exact .inl rfl
      · exact .inr ⟨sp', h₁, h₂⟩

theorem fieldResults_isOk (fs : List (String × Spec)) :
    (∃ rs, fieldResults lib fe t fs = .ok rs) ↔ ∀ f ∈ fs, ∃ r, fieldResult lib fe t f.1 f.2 = .ok r := by
  induction fs with
  | nil => exact ⟨fun _ _ h => (nomatch h), fun _ => ⟨[], rfl⟩⟩
  | cons f fs ih =>
    obtain ⟨n, sp⟩ := f
    rw [fieldResults_cons, List.forall_mem_cons, ← ih]
    cases fieldResult lib fe t n sp <;> cases fieldResults lib fe t fs <;>
      simp [wrapErr, Except.map, Except.bind]

end Fields

/-! ### Trees and schemas along paths -/

mutual
/-- Every map of the tree has distinct keys, as every Go map does. -/
def Spec.keysUnique : Spec → Bool
  | .obj fs => decide (fs.map Prod.fst).Nodup && Spec.fieldsKeysUnique fs
  | _ => true

/-- `Spec.keysUnique` on every value of a map. -/
def Spec.fieldsKeysUnique : List (String × Spec) → Bool
  | [] => true
  | (_, v) :: fs => v.keysUnique && Spec.fieldsKeysUnique fs
end

/-- The trees a Go `map[string]interface{}` can hold. -/
def Spec.WF (s : Spec) : Prop := s.keysUnique = true

instance (s : Spec) : Decidable s.WF := inferInstanceAs (Decidable (_ = true))

theorem Spec.wf_obj (fs : List (String × Spec)) :
    (Spec.obj fs).WF ↔ (fs.map Prod.fst).Nodup ∧ ∀ f ∈ fs, f.2.WF := by
  have : ∀ fs : List (String × Spec), Spec.fieldsKeysUnique fs = true ↔ ∀ f ∈ fs, f.2.WF := by
    intro fs
    induction fs with
    | nil => simp [Spec.fieldsKeysUnique]
    | cons f fs ih => obtain ⟨n, v⟩ := f; simp [Spec.fieldsKeysUnique, ih, Spec.WF]
  simp [Spec.WF, Spec.keysUnique, this]

/-- The schema found by following property names. -/
def JSONSchemaProps.atPath : JSONSchemaProps → List String → Option JSONSchemaProps
  | s, [] => some s
  | s, name :: path => (GoMap.get s.properties name).bind fun c => c.atPath path

/-! ### The object `buildSchema` returns -/

section Object

variable {Ty : Type} (lib : GoLib) (fe : Frontend Ty) (t : Transformer)

/-- The object of a map: its fields' results, folded. -/
theorem buildSchema_ok {fs : List (String × Spec)} {S : JSONSchemaProps}
    (h : buildSchema lib fe t fs = .ok S) :
    ∃ rs, fieldResults lib fe t fs = .ok rs ∧
      S = withChildDefault (assemble (objectSchema, false) rs).1
        (assemble (objectSchema, false) rs).2 := by
  rw [buildSchema_eq] at h
  obtain ⟨rs, hrs, rfl⟩ := except_map_eq_ok.mp h
  exact ⟨rs, hrs, rfl⟩

/-- Below a field of the map, the object's schema is the field's. -/
theorem buildSchema_atPath_cons {fs : List (String × Spec)} {S : JSONSchemaProps}
    (hn : (fs.map Prod.fst).Nodup) (h : buildSchema lib fe t fs = .ok S) {name : String}
    {spec : Spec} (hm : (name, spec) ∈ fs) :
    ∃ r, fieldResult lib fe t name spec = .ok r ∧
      ∀ path, S.atPath (name :: path) = r.1.atPath path := by
  obtain ⟨rs, hrs, rfl⟩ := buildSchema_ok lib fe t h
  obtain ⟨hnames, hmem⟩ := fieldResults_ok lib fe t hrs
  obtain ⟨r, hr⟩ := (fieldResults_isOk lib fe t fs).mp ⟨rs, hrs⟩ _ hm
  have hget := get_foldl_set_of_mem (hnames ▸ hn) objectSchema.properties
    ((hmem (name, r)).mpr ⟨spec, hm, hr⟩)
  refine ⟨r, hr, fun path => ?_⟩
  simp [JSONSchemaProps.atPath, assemble_fst, hget]

/-- Below a name that is not a field of the map there is nothing. -/
theorem buildSchema_atPath_not_mem {fs : List (String × Spec)} {S : JSONSchemaProps}
    (h : buildSchema lib fe t fs = .ok S) {name : String} (hn : name ∉ fs.map Prod.fst)
    (path : List String) : S.atPath (name :: path) = none := by
  obtain ⟨rs, hrs, rfl⟩ := buildSchema_ok lib fe t h
  have hget := get_foldl_set_of_not_mem rs [] (by rwa [(fieldResults_ok lib fe t hrs).1])
  simp [JSONSchemaProps.atPath, assemble_fst, hget, objectSchema, JSONSchemaProps.empty]

/-- `buildSchema` succeeds exactly when every field's result does. -/
theorem buildSchema_isOk (fs : List (String × Spec)) :
    (∃ S, buildSchema lib fe t fs = .ok S) ↔ ∀ f ∈ fs, ∃ r, fieldResult lib fe t f.1 f.2 = .ok r := by
  rw [← fieldResults_isOk, buildSchema_eq]
  cases fieldResults lib fe t fs <;> simp [Except.map]

end Object

/-! ### The `Required` list -/

section Required

variable {Ty : Type} (lib : GoLib) (fe : Frontend Ty) (t : Transformer)

/-- **A string field adds its name to `Required` once if its type is a custom type recorded as
required, then once per `required` marker of its own that `strconv.ParseBool` reads as true.** -/
theorem fieldResult_str_required {name v : String} {r : JSONSchemaProps × List String}
    (h : fieldResult lib fe t name (.str v) = .ok r) :
    ∃ typ markers, fe.parseField v = .ok (typ, markers) ∧
      r.2 = (if (fe.asCustom typ).any t.isRequired then [name] else []) ++
        List.replicate (requiredCount lib markers) name := by
  obtain ⟨r', hb, rfl⟩ := except_map_eq_ok.mp h
  rw [buildFieldSchema.eq_1, buildFieldFromString] at hb
  obtain ⟨⟨typ, markers⟩, hp, h⟩ := except_bind_eq_ok.mp hb
  obtain ⟨schema, -, h⟩ := except_bind_eq_ok.mp h
  refine ⟨typ, markers, hp, ?_⟩
  rw [(applyMarkers_ok h).2.1]
  cases fe.asCustom typ with
  | none => simp
  | some c => cases hc : t.isRequired c <;> simp [hc, JSONSchemaProps.empty]

/-- The names a field of the tree adds to its object's `Required` list, read off the field's
spec: a string field's custom type, then its `required` markers; a nested map adds none. -/
def fieldRequired (name : String) : Spec → List String
  | .str v =>
    match fe.parseField v with
    | .ok (typ, markers) =>
      (if (fe.asCustom typ).any t.isRequired then [name] else []) ++
        List.replicate (requiredCount lib markers) name
    | .error _ => []
  | _ => []

theorem fieldResult_required {name : String} {spec : Spec} {r : JSONSchemaProps × List String}
    (h : fieldResult lib fe t name spec = .ok r) : r.2 = fieldRequired lib fe t name spec := by
  cases spec with
  | str v =>
    obtain ⟨typ, markers, hp, hr⟩ := fieldResult_str_required lib fe t h
    rw [hr, fieldRequired, hp]
  | obj fs =>
    rw [fieldResult_obj] at h
    obtain ⟨F, -, rfl⟩ := except_map_eq_ok.mp h
    rfl
  | other g => cases h

theorem fieldResults_required {fs : List (String × Spec)}
    {rs : List (String × JSONSchemaProps × List String)} (h : fieldResults lib fe t fs = .ok rs) :
    rs.flatMap (·.2.2) = fs.flatMap fun f => fieldRequired lib fe t f.1 f.2 := by
  induction fs generalizing rs with
  | nil => cases h; rfl
  | cons f fs ih =>
    rw [fieldResults_cons] at h
    obtain ⟨r, hr, h⟩ := except_bind_eq_ok.mp h
    obtain ⟨rs', hrs', rfl⟩ := except_map_eq_ok.mp h
    rw [wrapErr_ok] at hr
    simp only [List.flatMap_cons, fieldResult_required lib fe t hr, ih hrs']

/-- **The `Required` list of an object is exact**: it lists, in the order the map is visited,
each string field once if its type is a custom type recorded as required and once more per
`required` marker of its own that `strconv.ParseBool` reads as true. -/
theorem buildSchema_required {fs : List (String × Spec)} {S : JSONSchemaProps}
    (h : buildSchema lib fe t fs = .ok S) :
    S.required = fs.flatMap fun f => fieldRequired lib fe t f.1 f.2 := by
  obtain ⟨rs, hrs, rfl⟩ := buildSchema_ok lib fe t h
  simp [assemble_fst, objectSchema, fieldResults_required lib fe t hrs]

/-- A field of a required custom type, marked `required=true` too, and a plain field. -/
theorem buildSchema_required_sample :
    ∃ S, buildSchema GoLib.minimal specFrontend
        ⟨[("T", ⟨{ JSONSchemaProps.empty with type := "string" }, true⟩)]⟩
        [("f", .str "T | required=true"), ("g", .str "string")] = .ok S ∧
      S.required = [("f", Spec.str "T | required=true"), ("g", .str "string")].flatMap fun f =>
        fieldRequired GoLib.minimal specFrontend
          ⟨[("T", ⟨{ JSONSchemaProps.empty with type := "string" }, true⟩)]⟩ f.1 f.2 := by
  obtain ⟨S, h⟩ : ∃ S, buildSchema GoLib.minimal specFrontend
      ⟨[("T", ⟨{ JSONSchemaProps.empty with type := "string" }, true⟩)]⟩
      [("f", .str "T | required=true"), ("g", .str "string")] = .ok S := ⟨_, rfl⟩
  exact ⟨S, h, buildSchema_required GoLib.minimal specFrontend _ h⟩

/-- One step of the last loop of `loadCustomTypes`: the type's parsed entry is found, and the
transformer records it under its name, required when one of its markers has the key `required`
and the value `true`, spelled exactly so; every other name keeps its entry. -/
theorem loadCustomType_ok {parsed : GoMap (Ty × List Marker)} {name : String}
    {t' : Transformer} (h : loadCustomType lib fe parsed t name = .ok t') :
    ∃ typ markers schema, GoMap.get parsed name = some (typ, markers) ∧
      t'.customTypes = GoMap.set t.customTypes name
        ⟨schema, markers.any fun m => m.key = "required" && m.value = "true"⟩ := by
  unfold loadCustomType at h
  split at h
  · cases h
  · rename_i typ markers hp
    obtain ⟨schema, -, h⟩ := except_bind_eq_ok.mp h
    obtain ⟨⟨schema', _⟩, -, h⟩ := except_bind_eq_ok.mp h
    cases h
    exact ⟨typ, markers, schema', hp, rfl⟩

/-- Over the whole dependency order, an entry of the transformer after the loop is the one it
had before, or was recorded by a step from the parsed markers of its own name. -/
theorem foldlM_loadCustomType_required {parsed : GoMap (Ty × List Marker)} (order : List String)
    {t' : Transformer} (h : order.foldlM (loadCustomType lib fe parsed) t = .ok t')
    {name : String} {ct : CustomType} (hct : GoMap.get t'.customTypes name = some ct) :
    GoMap.get t.customTypes name = some ct ∨ ∃ typ markers,
      GoMap.get parsed name = some (typ, markers) ∧
      ct.required = markers.any fun m => m.key = "required" && m.value = "true" := by
  induction order generalizing t with
  | nil => cases h; exact .inl hct
  | cons n order ih =>
    rw [List.foldlM_cons] at h
    obtain ⟨t₁, h₁, h⟩ := except_bind_eq_ok.mp h
    refine (ih t₁ h).elim (fun h' => ?_) .inr
    obtain ⟨typ, markers, schema, hp, ht₁⟩ := loadCustomType_ok lib fe t h₁
    rw [ht₁, GoMap.get_set] at h'
    split at h'
    · subst name
      cases h'
      exact .inr ⟨typ, markers, hp, rfl⟩
    · exact .inl h'

/-- Every entry of the map `loadCustomTypes` parses comes from the `types` map: the spec under
its name parses to it. -/
theorem mapM_parseSpec_get {customTypes : List (String × Spec)}
    {parsed : GoMap (Ty × List Marker)}
    (h : customTypes.mapM (fun (name, spec) =>
      (wrapErr ("parsing type " ++ name ++ ": ") (fe.parseSpec spec)).map (name, ·)) = .ok parsed)
    {name : String} {p : Ty × List Marker} (hp : GoMap.get parsed name = some p) :
    ∃ spec, GoMap.get customTypes name = some spec ∧ fe.parseSpec spec = .ok p := by
  induction customTypes generalizing parsed with
  | nil => cases h; cases hp
  | cons e customTypes ih =>
    rw [List.mapM_cons] at h
    obtain ⟨q, hq, h⟩ := except_bind_eq_ok.mp h
    obtain ⟨qs, hqs, h⟩ := except_bind_eq_ok.mp h
    cases h
    obtain ⟨r, hr, rfl⟩ := except_map_eq_ok.mp hq
    rw [wrapErr_ok] at hr
    rw [GoMap.get_cons] at hp ⊢
    split at hp
    · cases hp
      exact ⟨e.2, if_pos ‹_›, hr⟩
    · rw [if_neg ‹_›]
      exact ih hqs hp

end Required

/-- A type `T` declared `string | required=True` is loaded as not required, while a field
marked `required=True` is required; a field of a type declared `required=true` that is itself
marked `required=true` is listed twice. -/
theorem buildSchema_required_custom (lib : GoLib) :
    loadCustomTypes lib specFrontend ⟨[]⟩ [("T", .str "string | required=True")] =
        .ok ⟨[("T", ⟨{ JSONSchemaProps.empty with type := "string" }, false⟩)]⟩ ∧
      (buildSchema lib specFrontend
        ⟨[("T", ⟨{ JSONSchemaProps.empty with type := "string" }, false⟩)]⟩
        [("f", .str "T")]).map (·.required) = .ok [] ∧
      (buildSchema lib specFrontend ⟨[]⟩ [("f", .str "string | required=True")]).map
        (·.required) = .ok ["f"] ∧
      loadCustomTypes lib specFrontend ⟨[]⟩ [("T", .str "string | required=true")] =
        .ok ⟨[("T", ⟨{ JSONSchemaProps.empty with type := "string" }, true⟩)]⟩ ∧
      (buildSchema lib specFrontend
        ⟨[("T", ⟨{ JSONSchemaProps.empty with type := "string" }, true⟩)]⟩
        [("f", .str "T | required=true")]).map (·.required) = .ok ["f", "f"] :=
  ⟨rfl, rfl, rfl, rfl, rfl⟩

end Kro.SimpleSchema
