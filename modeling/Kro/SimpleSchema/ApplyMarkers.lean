import Kro.SimpleSchema.Markers
import Kro.Json.Text

/-!
# Applying markers to a field's schema

`applyMarkers` walks a field's markers in order.  Each marker either writes one field of the
field's `JSONSchemaProps`, appends the field's name to the parent's `Required` list, or ends
the walk with an error; the checks that an error reports are made against the schema's type,
which no marker changes.

* **`applyMarkers_append`** — markers are applied one list after the other.
* **`applyMarkers_type`** — the schema's type is the one it came in with.
* **`applyMarkers_parent`** — the parent gains one copy of the key per `required` marker that
  parses as true, and nothing else.
* **`applyMarkers_scoped`** — a walk that succeeds had every type-checked marker on a schema of
  its type.
* **`applyMarkers_xValidations`** — **PROVED**: the validation rules after the walk are the
  rule of the last `validation` marker (or the schema's own), then the immutability rules of
  the `immutable` markers after it; a `validation` marker replaces every rule before it.
* **`applyMarkers_string_default`** — **PROVED**: the `default` of a string field is its value
  between quotes, the JSON text of the value exactly when the value has no quote, backslash or
  control character.
-/

namespace Kro.SimpleSchema

open Kro.Go Kro.Json

/-- `extv1.ValidationRule`, the two fields the compiler fills in. -/
structure ValidationRule where
  rule : String
  message : String
  deriving Repr, DecidableEq

/-- `extv1.JSONSchemaProps`, the fields the schema compiler reads or writes.  `Default` and the
items of `Enum` are `extv1.JSON` values, kept as their raw text; `Items` and
`AdditionalProperties` hold one schema here. -/
structure JSONSchemaProps where
  type : String
  description : String
  default : Option (List Char)
  minimum : Option UInt64
  maximum : Option UInt64
  xValidations : List ValidationRule
  enum : List (List Char)
  minLength : Option Int
  maxLength : Option Int
  pattern : String
  xListType : Option String
  minItems : Option Int
  maxItems : Option Int
  required : List String
  properties : List (String × JSONSchemaProps)
  items : Option JSONSchemaProps
  additionalProperties : Option JSONSchemaProps

/-- `&extv1.JSONSchemaProps{}`. -/
def JSONSchemaProps.empty : JSONSchemaProps :=
  ⟨"", "", none, none, none, [], [], none, none, "", none, none, none, [], [], none, none⟩

@[simp] theorem JSONSchemaProps.empty_required : JSONSchemaProps.empty.required = [] := rfl

/-- The rule `immutable=true` adds. -/
def immutableRule : ValidationRule := ⟨"self == oldSelf", "field is immutable"⟩

/-! ### The `switch` of `applyMarkers` -/

/-- The four integer bounds (`minLength`, `maxLength`, `minItems`, `maxItems`): the type check,
then `strconv.ParseInt(value, 10, 64)`. -/
def intBound (lib : GoLib) (schema : JSONSchemaProps) (name ty : String) (value : String)
    (set : JSONSchemaProps → Int → JSONSchemaProps) : Except GoError JSONSchemaProps :=
  if schema.type ≠ ty then
    fail (name ++ " marker is only valid for " ++ ty ++ " types, got type: " ++ schema.type)
  else do
    let val ← wrapErr ("failed to parse " ++ name ++ " value: ") (parseInt lib value)
    pure (set schema val)

/-- The loop over the comma-separated values of `enum`, each trimmed, checked and encoded
for the schema's type. -/
def enumValues (lib : GoLib) (type : String) : List (List Char) → Except GoError (List (List Char))
  | [] => .ok []
  | val :: vals =>
    let val := trimSpace val
    if val = [] then fail "empty enum values are not allowed"
    else do
      let rawValue ← match type with
        | "string" => .ok (quote lib val)
        | "integer" => do
          let _ ← wrapErr "failed to parse integer enum value: " (parseInt lib (String.mk val))
          pure val
        | _ => fail ("enum values only supported for string and integer types, got type: " ++ type)
      let rest ← enumValues lib type vals
      pure (rawValue :: rest)

/-- One marker: the `switch` on its type, on the schema and the parent. -/
def applyMarker (lib : GoLib) (schema : JSONSchemaProps) (marker : Marker) (key : String)
    (parent : JSONSchemaProps) : Except GoError (JSONSchemaProps × JSONSchemaProps) :=
  match marker.markerType with
  | .required => do
    let isRequired ← wrapErr "failed to parse required marker value: " (parseBool lib marker.value)
    pure (schema, if isRequired then { parent with required := parent.required ++ [key] } else parent)
  | .default =>
    let defaultValue := match schema.type with
      | "string" => '"' :: marker.value.toList ++ ['"']
      | "integer" | "number" | "boolean" => marker.value.toList
      | _ => marker.value.toList
    .ok ({ schema with default := some defaultValue }, parent)
  | .description => .ok ({ schema with description := marker.value }, parent)
  | .minimum => do
    let val ← wrapErr "failed to parse minimum enum value: " (parseFloat lib marker.value)
    pure ({ schema with minimum := some val }, parent)
  | .maximum => do
    let val ← wrapErr "failed to parse maximum enum value: " (parseFloat lib marker.value)
    pure ({ schema with maximum := some val }, parent)
  | .validation =>
    if trimSpace marker.value.toList = [] then fail "validation failed"
    else .ok ({ schema with xValidations := [⟨marker.value, "validation failed"⟩] }, parent)
  | .immutable => do
    let isImmutable ←
      wrapErr "failed to parse immutable marker value: " (parseBool lib marker.value)
    pure (if isImmutable then { schema with xValidations := schema.xValidations ++ [immutableRule] }
      else schema, parent)
  | .enum => do
    let enumJSONValues ← enumValues lib schema.type (stringsSplit ',' marker.value.toList)
    pure (if enumJSONValues.length > 0 then { schema with enum := enumJSONValues } else schema,
      parent)
  | .minLength => (intBound lib schema "minLength" "string" marker.value
      fun s v => { s with minLength := some v }).map (·, parent)
  | .maxLength => (intBound lib schema "maxLength" "string" marker.value
      fun s v => { s with maxLength := some v }).map (·, parent)
  | .pattern =>
    if marker.value = "" then fail "pattern marker value cannot be empty"
    else if schema.type ≠ "string" then
      fail ("pattern marker is only valid for string types, got type: " ++ schema.type)
    else match lib.regexpCompile marker.value with
      | some err => fail ("invalid pattern regex: " ++ err)
      | none => .ok ({ schema with pattern := marker.value }, parent)
  | .uniqueItems =>
    match parseBool lib marker.value with
    | .error err => .error (err.wrap "failed to parse uniqueItems marker value: ")
    | .ok isUnique =>
      if schema.type ≠ "array" then
        fail ("uniqueItems marker is only valid for array types, got type: " ++ schema.type)
      else if isUnique then .ok ({ schema with xListType := some "set" }, parent)
      else .ok (schema, parent)
  | .minItems => (intBound lib schema "minItems" "array" marker.value
      fun s v => { s with minItems := some v }).map (·, parent)
  | .maxItems => (intBound lib schema "maxItems" "array" marker.value
      fun s v => { s with maxItems := some v }).map (·, parent)

/-- `applyMarkers`: the markers in order; the first error ends the walk. -/
def applyMarkers (lib : GoLib) (schema : JSONSchemaProps) (markers : List Marker) (key : String)
    (parent : JSONSchemaProps) : Except GoError (JSONSchemaProps × JSONSchemaProps) :=
  match markers with
  | [] => .ok (schema, parent)
  | m :: ms => do
    let (schema, parent) ← applyMarker lib schema m key parent
    applyMarkers lib schema ms key parent

theorem applyMarkers_nil (lib : GoLib) (s : JSONSchemaProps) (key : String) (p : JSONSchemaProps) :
    applyMarkers lib s [] key p = .ok (s, p) := rfl

theorem applyMarkers_cons (lib : GoLib) (s : JSONSchemaProps) (m : Marker) (ms : List Marker)
    (key : String) (p : JSONSchemaProps) :
    applyMarkers lib s (m :: ms) key p =
      (applyMarker lib s m key p).bind fun r => applyMarkers lib r.1 ms key r.2 := rfl

theorem applyMarkers_append (lib : GoLib) (s : JSONSchemaProps) (ms ms' : List Marker)
    (key : String) (p : JSONSchemaProps) :
    applyMarkers lib s (ms ++ ms') key p =
      (applyMarkers lib s ms key p).bind fun r => applyMarkers lib r.1 ms' key r.2 := by
  induction ms generalizing s p with
  | nil => rfl
  | cons m ms ih =>
    rw [List.cons_append, applyMarkers_cons, applyMarkers_cons]
    cases applyMarker lib s m key p <;> simp [Except.bind, ih]

/-! ### One marker -/

/-- A `required` marker whose value `strconv.ParseBool` reads as true. -/
def isTrueRequired (lib : GoLib) (m : Marker) : Bool :=
  match m.markerType with
  | .required => (parseBool lib m.value).toOption.getD false
  | _ => false

/-- The types a marker is checked against, for the markers whose case checks the type. -/
def checkedTypes : MarkerType → Option (List String)
  | .minLength | .maxLength | .pattern => some ["string"]
  | .uniqueItems | .minItems | .maxItems => some ["array"]
  | .enum => some ["string", "integer"]
  | _ => none

/-- The schema's type is one its marker is checked against. -/
def Scoped (type : String) (t : MarkerType) : Prop := ∀ tys, checkedTypes t = some tys → type ∈ tys

theorem enumValues_type {lib : GoLib} {ty : String} {v : List Char} {vs : List (List Char)}
    {r : List (List Char)} (h : enumValues lib ty (v :: vs) = .ok r) :
    ty = "string" ∨ ty = "integer" := by
  unfold enumValues at h
  dsimp only at h
  split_ifs at h
  · cases h
  · split at h
    · exact .inl rfl
    · exact .inr rfl
    · cases h

theorem intBound_ok {lib : GoLib} {s : JSONSchemaProps} {name ty v : String}
    {set : JSONSchemaProps → Int → JSONSchemaProps} {r : JSONSchemaProps}
    (h : intBound lib s name ty v set = .ok r) : s.type = ty ∧ ∃ n, r = set s n := by
  unfold intBound at h
  split_ifs at h with hty
  · cases h
  · obtain ⟨n, -, h⟩ := except_bind_eq_ok.mp h
    cases h
    exact ⟨not_not.mp hty, n, rfl⟩

/-- What one marker does: the type stays, the parent gains the key for a true `required`, and
a type-checked marker was on a schema of its type. -/
theorem applyMarker_ok {lib : GoLib} {s p : JSONSchemaProps} {m : Marker} {key : String}
    {r : JSONSchemaProps × JSONSchemaProps} (h : applyMarker lib s m key p = .ok r) :
    r.1.type = s.type ∧
      r.2 = (if isTrueRequired lib m then { p with required := p.required ++ [key] } else p) ∧
      Scoped s.type m.markerType := by
  obtain ⟨t, k, v⟩ := m
  cases t <;> dsimp only [applyMarker] at h
  case required =>
    obtain ⟨b, hb, h⟩ := except_bind_eq_ok.mp h
    cases h
    rw [wrapErr_ok] at hb
    simp [isTrueRequired, hb, Except.toOption, Scoped, checkedTypes]
  case default => cases h; simp [isTrueRequired, Scoped, checkedTypes]
  case description => cases h; simp [isTrueRequired, Scoped, checkedTypes]
  case minimum =>
    obtain ⟨b, -, h⟩ := except_bind_eq_ok.mp h
    cases h; simp [isTrueRequired, Scoped, checkedTypes]
  case maximum =>
    obtain ⟨b, -, h⟩ := except_bind_eq_ok.mp h
    cases h; simp [isTrueRequired, Scoped, checkedTypes]
  case validation =>
    split_ifs at h
    · cases h
    · cases h; simp [isTrueRequired, Scoped, checkedTypes]
  case immutable =>
    obtain ⟨b, -, h⟩ := except_bind_eq_ok.mp h
    cases h; cases b <;> simp [isTrueRequired, Scoped, checkedTypes]
  case enum =>
    obtain ⟨vals, hv, h⟩ := except_bind_eq_ok.mp h
    cases h
    obtain ⟨v₀, vs, hs⟩ := List.exists_cons_of_ne_nil (stringsSplit_ne_nil ',' v.toList)
    rw [hs] at hv
    have := enumValues_type hv
    refine ⟨by split <;> rfl, by simp [isTrueRequired], ?_⟩
    rintro tys ⟨⟩
    simpa using this
  case minLength =>
    obtain ⟨s', hs, rfl⟩ := except_map_eq_ok.mp h
    obtain ⟨hty, n, rfl⟩ := intBound_ok hs
    simp [isTrueRequired, Scoped, checkedTypes, hty]
  case maxLength =>
    obtain ⟨s', hs, rfl⟩ := except_map_eq_ok.mp h
    obtain ⟨hty, n, rfl⟩ := intBound_ok hs
    simp [isTrueRequired, Scoped, checkedTypes, hty]
  case pattern =>
    split_ifs at h with h1 h2
    · cases h
    · cases h
    · split at h
      · cases h
      · cases h; simp [isTrueRequired, Scoped, checkedTypes, not_not.mp h2]
  case uniqueItems =>
    split at h
    · cases h
    · split_ifs at h with h1 h2 <;> cases h <;> simp [isTrueRequired, Scoped, checkedTypes, not_not.mp h1]
  case minItems =>
    obtain ⟨s', hs, rfl⟩ := except_map_eq_ok.mp h
    obtain ⟨hty, n, rfl⟩ := intBound_ok hs
    simp [isTrueRequired, Scoped, checkedTypes, hty]
  case maxItems =>
    obtain ⟨s', hs, rfl⟩ := except_map_eq_ok.mp h
    obtain ⟨hty, n, rfl⟩ := intBound_ok hs
    simp [isTrueRequired, Scoped, checkedTypes, hty]
/-- A marker does the same whatever the parent, but for the parent's `Required`, which gains
what it gains from the empty parent. -/
theorem applyMarker_parent (lib : GoLib) (s : JSONSchemaProps) (m : Marker) (key : String)
    (p : JSONSchemaProps) :
    applyMarker lib s m key p = (applyMarker lib s m key .empty).map fun r =>
      (r.1, { p with required := p.required ++ r.2.required }) := by
  obtain ⟨t, k, v⟩ := m
  cases p
  cases t <;> simp only [applyMarker]
  case required | immutable =>
    rcases parseBool lib v with e | b
    · simp [wrapErr, Except.map, Except.bind, bind]
    · cases b <;> simp [wrapErr, Except.map, Except.bind, bind, pure, Except.pure]
  case minimum | maximum =>
    cases parseFloat lib v <;> simp [wrapErr, Except.map, Except.bind, bind, pure, Except.pure]
  case validation => split <;> simp [fail, Except.map]
  case enum =>
    cases enumValues lib s.type (stringsSplit ',' v.toList) <;>
      simp [Except.map, Except.bind, bind, pure, Except.pure]
  case pattern =>
    split_ifs <;> simp [fail, Except.map]
    split <;> simp [fail, Except.map]
  case uniqueItems =>
    cases parseBool lib v <;> simp [fail, Except.map]
    split_ifs <;> simp [fail, Except.map]
  case default | description => simp [Except.map]
  all_goals simp only [Except.map]; split <;> simp

/-! ### The walk -/

/-- The number of `required` markers that parse as true. -/
def requiredCount (lib : GoLib) (ms : List Marker) : Nat := (ms.filter (isTrueRequired lib)).length

theorem applyMarkers_ok {lib : GoLib} {s p : JSONSchemaProps} {ms : List Marker} {key : String}
    {r : JSONSchemaProps × JSONSchemaProps} (h : applyMarkers lib s ms key p = .ok r) :
    r.1.type = s.type ∧
      r.2 = { p with required := p.required ++ List.replicate (requiredCount lib ms) key } ∧
      ∀ m ∈ ms, Scoped s.type m.markerType := by
  induction ms generalizing s p with
  | nil => cases h; cases p; simp [requiredCount]
  | cons m ms ih =>
    obtain ⟨r₁, h₁, h₂⟩ := except_bind_eq_ok.mp h
    obtain ⟨hty₁, hp₁, hm⟩ := applyMarker_ok h₁
    obtain ⟨hty, hp, hms⟩ := ih h₂
    refine ⟨hty.trans hty₁, ?_, List.forall_mem_cons.mpr ⟨hm, hty₁ ▸ hms⟩⟩
    rw [hp, hp₁]
    cases hr : isTrueRequired lib m <;> cases p <;>
      simp [requiredCount, List.filter_cons, hr, List.replicate_succ]

theorem applyMarkers_type {lib : GoLib} {s p : JSONSchemaProps} {ms : List Marker} {key : String}
    {r : JSONSchemaProps × JSONSchemaProps} (h : applyMarkers lib s ms key p = .ok r) :
    r.1.type = s.type :=
  (applyMarkers_ok h).1

theorem applyMarkers_parent {lib : GoLib} {s p : JSONSchemaProps} {ms : List Marker}
    {key : String} {r : JSONSchemaProps × JSONSchemaProps}
    (h : applyMarkers lib s ms key p = .ok r) :
    r.2 = { p with required := p.required ++ List.replicate (requiredCount lib ms) key } :=
  (applyMarkers_ok h).2.1

/-- The walk does the same whatever the parent, which only gains what the empty parent gains. -/
theorem applyMarkers_parent_indep (lib : GoLib) (s : JSONSchemaProps) (ms : List Marker)
    (key : String) (p : JSONSchemaProps) :
    applyMarkers lib s ms key p = (applyMarkers lib s ms key .empty).map fun r =>
      (r.1, { p with required := p.required ++ r.2.required }) := by
  induction ms generalizing s p with
  | nil => cases p; simp [applyMarkers_nil, Except.map]
  | cons m ms ih =>
    rw [applyMarkers_cons, applyMarkers_cons, applyMarker_parent lib s m key p]
    cases applyMarker lib s m key .empty with
    | error e => rfl
    | ok r =>
      simp only [Except.map, Except.bind]
      rw [ih r.1 { p with required := p.required ++ r.2.required }, ih r.1 r.2]
      cases applyMarkers lib r.1 ms key .empty <;> simp [Except.map]

/-! ### The scoping table -/

/-- **A walk that succeeds had every type-checked marker on a schema of its type**:
`minLength`, `maxLength` and `pattern` on a string, `minItems`, `maxItems` and `uniqueItems` on
an array, `enum` on a string or an integer. -/
theorem applyMarkers_scoped {lib : GoLib} {s p : JSONSchemaProps} {ms : List Marker}
    {key : String} {r : JSONSchemaProps × JSONSchemaProps}
    (h : applyMarkers lib s ms key p = .ok r) :
    ∀ m ∈ ms, ∀ tys, checkedTypes m.markerType = some tys → s.type ∈ tys :=
  (applyMarkers_ok h).2.2

/-- `minLength=3 pattern="^a"` on a string field. -/
theorem applyMarkers_scoped_sample :
    ∃ r, applyMarkers GoLib.minimal { JSONSchemaProps.empty with type := "string" }
        [⟨.minLength, "minLength", "3"⟩, ⟨.pattern, "pattern", "^a"⟩] "name" .empty = .ok r ∧
      ∀ m ∈ [(⟨.minLength, "minLength", "3"⟩ : Marker), ⟨.pattern, "pattern", "^a"⟩], ∀ tys,
        checkedTypes m.markerType = some tys → "string" ∈ tys := by
  obtain ⟨r, h⟩ : ∃ r, applyMarkers GoLib.minimal { JSONSchemaProps.empty with type := "string" }
      [⟨.minLength, "minLength", "3"⟩, ⟨.pattern, "pattern", "^a"⟩] "name" .empty = .ok r :=
    ⟨_, rfl⟩
  exact ⟨r, h, applyMarkers_scoped h⟩

/-- Nothing checks a `default` against the schema's type: an integer field takes
`default=abc`, which is no JSON number. -/
theorem applyMarkers_integer_default_unchecked :
    ¬ ∀ (lib : GoLib) (s : JSONSchemaProps) (ms : List Marker) (key : String)
        (p : JSONSchemaProps) (r : JSONSchemaProps × JSONSchemaProps),
        applyMarkers lib s ms key p = .ok r → ∀ m ∈ ms, m.markerType = .default →
          s.type = "integer" → JsonNumber m.value.toList := by
  intro h
  obtain ⟨c, cs, hc, hd⟩ := (h GoLib.minimal { JSONSchemaProps.empty with type := "integer" }
    [⟨.default, "default", "abc"⟩] "count" .empty _ rfl _ (List.mem_singleton_self _) rfl rfl).head
  cases hc
  revert hd
  decide

/-! ### Validation rules -/

/-- An `immutable` marker whose value `strconv.ParseBool` reads as true. -/
def isTrueImmutable (lib : GoLib) (m : Marker) : Bool :=
  m.markerType = .immutable && (parseBool lib m.value).toOption.getD false

/-- The value of the last `validation` marker. -/
def lastValidation (ms : List Marker) : Option String :=
  (ms.reverse.find? fun m => m.markerType = .validation).map (·.value)

/-- The markers after the last `validation` marker; all of them when there is none. -/
def afterLastValidation (ms : List Marker) : List Marker :=
  (ms.reverse.takeWhile fun m => m.markerType ≠ .validation).reverse

/-- What one marker does to the validation rules: a `validation` marker sets them to its own
rule, an `immutable` marker that parses as true adds `self == oldSelf`, the others keep them. -/
theorem applyMarker_xValidations {lib : GoLib} {s p : JSONSchemaProps} {m : Marker} {key : String}
    {r : JSONSchemaProps × JSONSchemaProps} (h : applyMarker lib s m key p = .ok r) :
    r.1.xValidations = if m.markerType = .validation then [⟨m.value, "validation failed"⟩]
      else s.xValidations ++ if isTrueImmutable lib m then [immutableRule] else [] := by
  obtain ⟨t, k, v⟩ := m
  cases t <;> dsimp only [applyMarker] at h
  case required | minimum | maximum =>
    obtain ⟨b, -, h⟩ := except_bind_eq_ok.mp h
    cases h; simp [isTrueImmutable]
  case default | description => cases h; simp [isTrueImmutable]
  case validation =>
    split_ifs at h
    · cases h
    · cases h; simp
  case immutable =>
    obtain ⟨b, hb, h⟩ := except_bind_eq_ok.mp h
    cases h
    rw [wrapErr_ok] at hb
    cases b <;> simp [isTrueImmutable, hb, Except.toOption]
  case enum =>
    obtain ⟨vals, -, h⟩ := except_bind_eq_ok.mp h
    cases h; split <;> simp [isTrueImmutable]
  case minLength | maxLength | minItems | maxItems =>
    obtain ⟨s', hs, rfl⟩ := except_map_eq_ok.mp h
    obtain ⟨-, n, rfl⟩ := intBound_ok hs
    simp [isTrueImmutable]
  case pattern =>
    split_ifs at h
    · cases h
    · cases h
    · split at h
      · cases h
      · cases h; simp [isTrueImmutable]
  case uniqueItems =>
    split at h
    · cases h
    · split_ifs at h <;> cases h <;> simp [isTrueImmutable]

/-- **The validation rules `applyMarkers` leaves**: the rule of the last `validation` marker, or
the rules the schema came with when there is none, then one `self == oldSelf` per `immutable`
marker after it that `strconv.ParseBool` reads as true.  Every rule before the last
`validation` marker is lost, whether the schema came with it or an `immutable` marker added
it. -/
theorem applyMarkers_xValidations {lib : GoLib} {s p : JSONSchemaProps} {ms : List Marker}
    {key : String} {r : JSONSchemaProps × JSONSchemaProps}
    (h : applyMarkers lib s ms key p = .ok r) :
    r.1.xValidations =
      ((lastValidation ms).map fun v => [⟨v, "validation failed"⟩]).getD s.xValidations ++
        List.replicate ((afterLastValidation ms).filter (isTrueImmutable lib)).length
          immutableRule := by
  induction ms using List.reverseRecOn generalizing r with
  | nil => cases h; simp [lastValidation, afterLastValidation]
  | append_singleton ms m ih =>
    rw [applyMarkers_append] at h
    obtain ⟨r₁, h₁, h⟩ := except_bind_eq_ok.mp h
    rw [applyMarkers_cons] at h
    obtain ⟨r₂, h₂, h⟩ := except_bind_eq_ok.mp h
    cases h
    rw [applyMarker_xValidations h₂, ih h₁]
    by_cases hv : m.markerType = .validation
    · simp [lastValidation, afterLastValidation, hv]
    · cases hi : isTrueImmutable lib m <;>
        simp [lastValidation, afterLastValidation, hv, hi, List.filter_append, List.replicate_add]

/-- A schema with a rule of its own, then `immutable=true validation="self > 0" immutable=true`. -/
theorem applyMarkers_xValidations_sample :
    ∃ r, applyMarkers GoLib.minimal
        { JSONSchemaProps.empty with xValidations := [⟨"self.size() > 0", "too short"⟩] }
        [⟨.immutable, "immutable", "true"⟩, ⟨.validation, "validation", "self > 0"⟩,
          ⟨.immutable, "immutable", "true"⟩] "replicas" .empty = .ok r ∧
      r.1.xValidations =
        ((lastValidation [⟨.immutable, "immutable", "true"⟩,
            ⟨.validation, "validation", "self > 0"⟩, ⟨.immutable, "immutable", "true"⟩]).map
          fun v => [⟨v, "validation failed"⟩]).getD [⟨"self.size() > 0", "too short"⟩] ++
          List.replicate ((afterLastValidation [⟨.immutable, "immutable", "true"⟩,
            ⟨.validation, "validation", "self > 0"⟩, ⟨.immutable, "immutable", "true"⟩]).filter
              (isTrueImmutable GoLib.minimal)).length immutableRule := by
  obtain ⟨r, h⟩ : ∃ r, applyMarkers GoLib.minimal
      { JSONSchemaProps.empty with xValidations := [⟨"self.size() > 0", "too short"⟩] }
      [⟨.immutable, "immutable", "true"⟩, ⟨.validation, "validation", "self > 0"⟩,
        ⟨.immutable, "immutable", "true"⟩] "replicas" .empty = .ok r := ⟨_, rfl⟩
  exact ⟨r, h, applyMarkers_xValidations h⟩

/-- `immutable=true validation="self > 0"` leaves the rule of the `validation` marker only. -/
theorem applyMarkers_drops_immutable (lib : GoLib) :
    (applyMarkers lib .empty
        [⟨.immutable, "immutable", "true"⟩, ⟨.validation, "validation", "self > 0"⟩] "replicas"
        .empty).map (·.1.xValidations) = .ok [⟨"self > 0", "validation failed"⟩] :=
  rfl

/-! ### String defaults -/

/-- **The `default` of a string field is its value between two quotes, which is the JSON text of
the value exactly when the value has no quote, backslash or control character**, whatever
markers come before it. -/
theorem applyMarkers_string_default {lib : GoLib} {s p : JSONSchemaProps} {ms : List Marker}
    {k v key : String} {r : JSONSchemaProps × JSONSchemaProps} (hs : s.type = "string")
    (h : applyMarkers lib s (ms ++ [⟨.default, k, v⟩]) key p = .ok r) :
    r.1.default = some ('"' :: v.toList ++ ['"']) ∧
      (DecodesToString ('"' :: v.toList ++ ['"']) v.toList ↔ ∀ c ∈ v.toList, Unescaped c) := by
  rw [applyMarkers_append] at h
  obtain ⟨r₁, h₁, h⟩ := except_bind_eq_ok.mp h
  rw [applyMarkers_cons] at h
  obtain ⟨r₂, h₂, h⟩ := except_bind_eq_ok.mp h
  simp only [applyMarker, applyMarkers_type h₁, hs] at h₂
  cases h₂; cases h
  exact ⟨rfl, decodesToString_quoted_iff v.toList⟩

/-- `description="name" default="a b"` on a string field. -/
theorem applyMarkers_string_default_sample :
    ∃ r, { JSONSchemaProps.empty with type := "string" }.type = "string" ∧
      applyMarkers GoLib.minimal { JSONSchemaProps.empty with type := "string" }
        ([(⟨.description, "description", "name"⟩ : Marker)] ++ [(⟨.default, "default", "a b"⟩ : Marker)]) "name"
        .empty = .ok r ∧
      r.1.default = some ('"' :: "a b".toList ++ ['"']) ∧
        (DecodesToString ('"' :: "a b".toList ++ ['"']) "a b".toList ↔
          ∀ c ∈ "a b".toList, Unescaped c) := by
  obtain ⟨r, h⟩ : ∃ r, applyMarkers GoLib.minimal { JSONSchemaProps.empty with type := "string" }
      ([(⟨.description, "description", "name"⟩ : Marker)] ++ [(⟨.default, "default", "a b"⟩ : Marker)]) "name"
      .empty = .ok r := ⟨_, rfl⟩
  exact ⟨r, rfl, h, applyMarkers_string_default rfl h⟩

/-- `default="a\"b"`, whose value is `a"b`, gives the default `"a"b"`, which is not the JSON
text of `a"b`. -/
theorem applyMarkers_string_default_quote (lib : GoLib) :
    (applyMarkers lib { JSONSchemaProps.empty with type := "string" }
        [⟨.default, "default", "a\"b"⟩] "name" .empty).map (·.1.default) =
      .ok (some "\"a\"b\"".toList) ∧
    ¬ DecodesToString "\"a\"b\"".toList "a\"b".toList := by
  refine ⟨rfl, fun h => ?_⟩
  have := (decodesToString_quoted_iff "a\"b".toList).mp h
  revert this
  decide

end Kro.SimpleSchema
