import Kro.Delta.Compare

/-!
# When `Compare` finds no difference

`Compare` is the only gate on an apply: an empty result skips it.  This module says exactly
when the result is empty, for every pair of objects and every iteration order of every map.

* **`Covers`** — the structural reading of the walk: a map is covered by a map when every
  desired key is present with a covering value, or absent with desired `nil`; a list by a list
  of the same length, itemwise; a leaf by an equal leaf.  `walkCompare_eq_nil_iff` shows the
  walk returns no difference exactly then, whatever the paths it prints.
* **`Covered`** — the same law stated pointwise over paths of keys and indices, the way the
  delta computer is specified: wherever the desired tree holds a map, a list, a leaf or
  `nil`, the observed tree holds a map, a list of the same length, an equal leaf, or `nil`
  (or lacks that key).  `covers_iff_covered` connects the two for desired trees whose maps
  have distinct keys, which every Go map has.
* **`clean`** — the cleaning as the specification states it, by the fields it removes;
  `cleanMetadata_eq_clean` shows the code's `cleanMetadata` is `clean` on every Go map.
* **`compare_eq_nil_iff`** — **PROVED**: `Compare` returns no difference iff `clean(desired)`
  is `Covered` by `clean(observed)`.
-/

namespace Kro.Delta

open Kro.Go

/-! ### The structural law -/

mutual
/-- `d` is covered by `o`, following the shape of `walkCompare`. -/
def Covers : Value → Value → Prop
  | .obj d, o => match o with
    | .obj e => CoversMap d e
    | _ => False
  | .arr d, o => match o with
    | .arr e => d.length = e.length ∧ CoversList d e
    | _ => False
  | .null, o => Value.leafEq .null o = true
  | .scalar s, o => Value.leafEq (.scalar s) o = true

/-- Every entry of a desired map is covered by the observed map. -/
def CoversMap : List (String × Value) → GoMap Value → Prop
  | [], _ => True
  | (k, v) :: rest, e =>
    (match e.get k with
      | none => v = .null
      | some w => Covers v w) ∧ CoversMap rest e

/-- Itemwise coverage of two lists. -/
def CoversList : List Value → List Value → Prop
  | d :: ds, o :: os => Covers d o ∧ CoversList ds os
  | _, _ => True
end

mutual
theorem walkCompare_eq_nil_iff : ∀ (d o : Value) (path : String),
    walkCompare d o path = [] ↔ Covers d o
  | .obj d, o, path => by
    cases o <;> simp [walkCompare, Covers, walkMap_eq_nil_iff]
  | .arr d, o, path => by
    cases o with
    | arr e =>
      by_cases h : d.length = e.length
      · simp [walkCompare, Covers, h, walkSlice_eq_nil_iff]
      · simp [walkCompare, Covers, h]
    | _ => simp [walkCompare, Covers]
  | .null, o, path => by cases o <;> simp [walkCompare, Covers, Value.leafEq]
  | .scalar s, o, path => by cases o <;> simp [walkCompare, Covers, Value.leafEq]

theorem walkMap_eq_nil_iff : ∀ (d e : List (String × Value)) (path : String),
    walkMap d e path = [] ↔ CoversMap d e
  | [], e, path => by simp [walkMap, CoversMap]
  | (k, dv) :: rest, e, path => by
    rw [walkMap, CoversMap, List.append_eq_nil, walkMap_eq_nil_iff rest e path]
    cases h : GoMap.get e k with
    | none => cases dv <;> simp [walkCompare, Value.isNil, Value.leafEq]
    | some w => simp [walkCompare_eq_nil_iff dv w]

theorem walkSlice_eq_nil_iff : ∀ (d o : List Value) (path : String) (i : Nat),
    walkSlice d o path i = [] ↔ CoversList d o
  | d :: ds, o :: os, path, i => by
    simp only [walkSlice.eq_1, CoversList.eq_1, List.append_eq_nil, walkCompare_eq_nil_iff d o,
      walkSlice_eq_nil_iff ds os]
  | [], _, _, _ => by simp [walkSlice, CoversList]
  | _ :: _, [], _, _ => by simp [walkSlice, CoversList]
end

theorem leafEq_null {o : Value} (h : Value.leafEq .null o = true) : o = .null := by
  cases o <;> simp_all [Value.leafEq]

theorem leafEq_scalar {s : Scalar} {o : Value} (h : Value.leafEq (.scalar s) o = true) :
    o = .scalar s := by
  cases o <;> simp_all [Value.leafEq]

/-- A covered map entry: absent from observed with desired `nil`, or present and covered. -/
theorem CoversMap.get {d e : GoMap Value} (h : CoversMap d e) {k : String} {v : Value}
    (hk : d.get k = some v) :
    (e.get k = none ∧ v = .null) ∨ ∃ w, e.get k = some w ∧ Covers v w := by
  induction d with
  | nil => simp at hk
  | cons kv d ih =>
    obtain ⟨k', v'⟩ := kv
    simp only [CoversMap] at h
    rw [GoMap.get_cons] at hk
    split at hk
    · next hkk =>
      subst hkk
      cases hk
      revert h
      split <;> simp_all
    · exact ih h.2 hk

theorem CoversList.get {d o : List Value} (h : CoversList d o) (hl : d.length = o.length)
    {i : Nat} {v : Value} (hi : d[i]? = some v) : ∃ w, o[i]? = some w ∧ Covers v w := by
  induction d generalizing o i with
  | nil => simp at hi
  | cons x d ih =>
    cases o with
    | nil => simp at hl
    | cons y o =>
      cases i with
      | zero =>
        simp only [List.getElem?_cons_zero, Option.some.injEq] at hi
        exact ⟨y, List.getElem?_cons_zero, hi ▸ h.1⟩
      | succ i => simpa using ih h.2 (by simpa using hl) (by simpa using hi)

/-! ### The pointwise law over paths -/

/-- One step of a path: a map key or a list index. -/
inductive PathElem where
  | key (k : String)
  | index (i : Nat)
  deriving Repr, DecidableEq

/-- The value one step below. -/
def Value.child : Value → PathElem → Option Value
  | .obj m, .key k => GoMap.get m k
  | .arr xs, .index i => xs[i]?
  | _, _ => none

/-- The value at a path, if the path exists. -/
def Value.atPath (v : Value) : List PathElem → Option Value
  | [] => some v
  | e :: p => (v.child e).bind fun c => c.atPath p

@[simp] theorem Value.atPath_nil (v : Value) : v.atPath [] = some v := rfl

theorem Value.atPath_cons (v : Value) (e : PathElem) (p : List PathElem) :
    v.atPath (e :: p) = (v.child e).bind fun c => c.atPath p := rfl

/-- At `p` the observed tree lacks the last key of the path, under a map. -/
def MissingKey (o : Value) (p : List PathElem) : Prop :=
  ∃ q k m, p = q ++ [.key k] ∧ o.atPath q = some (.obj m) ∧ GoMap.get m k = none

/-- What coverage asks of the observed tree at `p`, given what the desired tree holds there. -/
def CoveredAt (o : Value) (p : List PathElem) : Option Value → Prop
  | some (.obj _) => ∃ m, o.atPath p = some (.obj m)
  | some (.arr xs) => ∃ ys, o.atPath p = some (.arr ys) ∧ ys.length = xs.length
  | some (.scalar s) => o.atPath p = some (.scalar s)
  | some .null => o.atPath p = some .null ∨ MissingKey o p
  | none => True

/-- `d` is covered by `o` at every path, as the delta computer is specified. -/
def Covered (d o : Value) : Prop := ∀ p, CoveredAt o p (d.atPath p)

theorem missingKey_cons {o w : Value} {e : PathElem} (hw : o.child e = some w)
    {p : List PathElem} : MissingKey o (e :: p) ↔ MissingKey w p := by
  constructor
  · rintro ⟨q, k, m, hq, hm, hk⟩
    cases q with
    | nil =>
      simp only [List.nil_append, List.cons.injEq] at hq
      obtain ⟨rfl, -⟩ := hq
      cases hm
      simp_all [Value.child]
    | cons e' q =>
      simp only [List.cons_append, List.cons.injEq] at hq
      obtain ⟨rfl, rfl⟩ := hq
      exact ⟨q, k, m, rfl, by simpa [Value.atPath_cons, hw] using hm, hk⟩
  · rintro ⟨q, k, m, rfl, hm, hk⟩
    exact ⟨e :: q, k, m, rfl, by simp [Value.atPath_cons, hw, hm], hk⟩

/-- One step down both trees: coverage below `e` is coverage of the two children. -/
theorem coveredAt_cons {o w : Value} {e : PathElem} (hw : o.child e = some w)
    (p : List PathElem) (x : Option Value) : CoveredAt o (e :: p) x ↔ CoveredAt w p x := by
  have ho : o.atPath (e :: p) = w.atPath p := by simp [Value.atPath_cons, hw]
  rcases x with _ | (_ | _ | _ | _) <;> simp only [CoveredAt, ho, missingKey_cons hw]

theorem Covered.child {d o v w : Value} (h : Covered d o) {e : PathElem}
    (hv : d.child e = some v) (hw : o.child e = some w) : Covered v w := fun p => by
  simpa [Value.atPath_cons, hv, coveredAt_cons hw] using h (e :: p)

theorem Covered.child_none {d o v : Value} (h : Covered d o) {e : PathElem}
    (hv : d.child e = some v) (hw : o.child e = none) : v = .null := by
  have := h [e]
  have ho : o.atPath [e] = none := by simp [Value.atPath_cons, hw]
  cases v <;> simp_all [CoveredAt, Value.atPath_cons]

/-! #### Structural coverage gives coverage at every path -/

/-- A covered child: a `nil` under a key the observed map lacks, or a covered child. -/
theorem Covers.child {d o v : Value} (h : Covers d o) {e : PathElem} (hv : d.child e = some v) :
    (v = .null ∧ MissingKey o [e]) ∨ ∃ w, o.child e = some w ∧ Covers v w := by
  cases d with
  | obj dm =>
    cases o with
    | obj om =>
      cases e with
      | key k =>
        rcases CoversMap.get (by simpa [Covers] using h) (by simpa [Value.child] using hv) with
          ⟨ho, rfl⟩ | ⟨w, ho, hw⟩
        · exact .inl ⟨rfl, [], k, om, rfl, rfl, ho⟩
        · exact .inr ⟨w, by simpa [Value.child] using ho, hw⟩
      | index _ => simp [Value.child] at hv
    | _ => simp [Covers] at h
  | arr ds =>
    cases o with
    | arr os =>
      cases e with
      | index i =>
        simp only [Covers] at h
        obtain ⟨w, hw, hvw⟩ := CoversList.get h.2 h.1 (by simpa [Value.child] using hv)
        exact .inr ⟨w, by simpa [Value.child] using hw, hvw⟩
      | key _ => simp [Value.child] at hv
    | _ => simp [Covers] at h
  | null => simp [Value.child] at hv
  | scalar _ => simp [Value.child] at hv

theorem coveredAt_of_covers : ∀ (p : List PathElem) {d o : Value}, Covers d o →
    CoveredAt o p (d.atPath p)
  | [], d, o, h => by
    cases d with
    | obj _ => cases o <;> simp_all [Covers, CoveredAt]
    | arr _ => cases o <;> simp_all [Covers, CoveredAt]
    | null => simp [CoveredAt, leafEq_null (o := o) (by simpa [Covers] using h)]
    | scalar s => simp [CoveredAt, leafEq_scalar (o := o) (by simpa [Covers] using h)]
  | e :: p, d, o, h => by
    cases hv : d.child e with
    | none => simp [Value.atPath_cons, hv, CoveredAt]
    | some v =>
      simp only [Value.atPath_cons, hv, Option.some_bind]
      rcases h.child hv with ⟨rfl, hm⟩ | ⟨w, hw, hvw⟩
      · cases p with
        | nil => exact .inr hm
        | cons e' p => simp [Value.atPath_cons, Value.child, CoveredAt]
      · exact (coveredAt_cons hw p _).mpr (coveredAt_of_covers p hvw)

theorem covered_of_covers {d o : Value} (h : Covers d o) : Covered d o :=
  fun p => coveredAt_of_covers p h

/-! #### Coverage at every path gives structural coverage, on well-formed trees -/

mutual
/-- Every map of the tree has distinct keys, as every Go map does. -/
def Value.keysUnique : Value → Bool
  | .obj m => decide (m.map Prod.fst).Nodup && keysUniqueMap m
  | .arr xs => keysUniqueList xs
  | _ => true

/-- `Value.keysUnique` on every value of a map. -/
def keysUniqueMap : List (String × Value) → Bool
  | [] => true
  | (_, v) :: m => v.keysUnique && keysUniqueMap m

/-- `Value.keysUnique` on every item of a list. -/
def keysUniqueList : List Value → Bool
  | [] => true
  | v :: vs => v.keysUnique && keysUniqueList vs
end

/-- The well-formed trees: those a Go `map[string]interface{}` can hold. -/
def Value.WF (v : Value) : Prop := v.keysUnique = true

instance (v : Value) : Decidable v.WF := inferInstanceAs (Decidable (_ = true))

/-- A map with distinct keys whose values are well-formed. -/
def WFMap (m : GoMap Value) : Prop := (m.map Prod.fst).Nodup ∧ ∀ kv ∈ m, kv.2.WF

theorem keysUniqueMap_iff (m : List (String × Value)) :
    keysUniqueMap m = true ↔ ∀ kv ∈ m, kv.2.WF := by
  induction m with
  | nil => simp [keysUniqueMap]
  | cons kv m ih => obtain ⟨k, v⟩ := kv; simp [keysUniqueMap, ih, Value.WF]

theorem keysUniqueList_iff (xs : List Value) : keysUniqueList xs = true ↔ ∀ x ∈ xs, x.WF := by
  induction xs with
  | nil => simp [keysUniqueList]
  | cons x xs ih => simp [keysUniqueList, ih, Value.WF]

theorem Value.wf_obj (m : List (String × Value)) : (Value.obj m).WF ↔ WFMap m := by
  simp [Value.WF, Value.keysUnique, WFMap, keysUniqueMap_iff]

theorem Value.wf_arr (xs : List Value) : (Value.arr xs).WF ↔ ∀ x ∈ xs, x.WF := by
  simp [Value.WF, Value.keysUnique, keysUniqueList_iff]

mutual
theorem covers_of_covered : ∀ (d o : Value), d.WF → Covered d o → Covers d o
  | .obj dm, o, hd, h => by
    obtain ⟨om, ho⟩ : ∃ om, o = .obj om := by simpa [CoveredAt] using h []
    subst ho
    have hwf := (Value.wf_obj dm).mp hd
    exact coversMap_of_covered dm om ((keysUniqueMap_iff dm).mpr hwf.2) fun k v hkv =>
      have hv : (Value.obj dm).child (.key k) = some v := GoMap.get_of_mem hwf.1 hkv
      ⟨fun hn => h.child_none hv hn, fun w hw => h.child hv hw⟩
  | .arr ds, o, hd, h => by
    obtain ⟨os, ho, hl⟩ : ∃ os, o = .arr os ∧ os.length = ds.length := by
      simpa [CoveredAt] using h []
    subst ho
    refine ⟨hl.symm, coversList_of_covered ds os ?_ fun i v w hv hw => ?_⟩
    · exact (keysUniqueList_iff ds).mpr ((Value.wf_arr ds).mp hd)
    · exact h.child (e := .index i) hv hw
  | .null, o, _, h => by
    rcases (by simpa [CoveredAt] using h [] : o = .null ∨ MissingKey o []) with rfl | ⟨q, _, _, hq, -⟩
    · rfl
    · simp at hq
  | .scalar s, o, _, h => by
    have : o = .scalar s := by simpa [CoveredAt] using h []
    simp [Covers, this, Value.leafEq]

theorem coversMap_of_covered : ∀ (dm om : List (String × Value)), keysUniqueMap dm →
    (∀ k v, (k, v) ∈ dm →
      (GoMap.get om k = none → v = .null) ∧ ∀ w, GoMap.get om k = some w → Covered v w) →
    CoversMap dm om
  | [], _, _, _ => trivial
  | (k, v) :: rest, om, hwf, h => by
    simp only [keysUniqueMap, Bool.and_eq_true] at hwf
    obtain ⟨hn, hs⟩ := h k v (List.mem_cons_self _ _)
    refine ⟨?_, coversMap_of_covered rest om hwf.2 fun k' v' hm =>
      h k' v' (List.mem_cons_of_mem _ hm)⟩
    cases hw : GoMap.get om k with
    | none => exact hn hw
    | some w => exact covers_of_covered v w hwf.1 (hs w hw)

theorem coversList_of_covered : ∀ (ds os : List Value), keysUniqueList ds →
    (∀ (i : Nat) (v w : Value), ds[i]? = some v → os[i]? = some w → Covered v w) →
    CoversList ds os
  | d :: ds, o :: os, hwf, h => by
    simp only [keysUniqueList, Bool.and_eq_true] at hwf
    exact ⟨covers_of_covered d o hwf.1 (h 0 d o (by simp) (by simp)),
      coversList_of_covered ds os hwf.2 fun i v w hv hw =>
        h (i + 1) v w (by simpa using hv) (by simpa using hw)⟩
  | [], _, _, _ => trivial
  | _ :: _, [], _, _ => trivial
end

/-- On well-formed desired trees the structural and the pointwise law agree. -/
theorem covers_iff_covered {d o : Value} (hd : d.WF) : Covers d o ↔ Covered d o :=
  ⟨covered_of_covers, covers_of_covered d o hd⟩

/-! ### `Compare` -/

theorem WFMap.delete {m : GoMap Value} (h : WFMap m) (k : String) : WFMap (m.delete k) :=
  ⟨h.1.sublist (GoMap.keys_delete_sublist m k), fun kv hkv => h.2 kv (GoMap.mem_of_mem_delete hkv)⟩

theorem WFMap.cleanFields {m : GoMap Value} (h : WFMap m) : WFMap (cleanFields m) := by
  have hdel : ∀ (m : GoMap Value) key, WFMap m → WFMap (deleteIfEmpty m key) := by
    intro m key hm
    unfold deleteIfEmpty
    split
    · split
      · exact hm.delete key
      · exact hm
    · exact hm
  have hfold : ∀ (ks : List String) (m : GoMap Value), WFMap m →
      WFMap (ks.foldl GoMap.delete m) := by
    intro ks
    induction ks with
    | nil => exact fun _ hm => hm
    | cons k ks ih => exact fun m hm => ih _ (hm.delete k)
  exact hfold _ _ (hdel _ _ (hdel _ _ h))

theorem WFMap.cleanMetadata {obj : GoMap Value} (h : WFMap obj) : WFMap (cleanMetadata obj) := by
  unfold Delta.cleanMetadata
  split
  · next md hmd =>
    refine ⟨by rw [GoMap.keys_set (by simp [hmd])]; exact h.1, fun kv hkv => ?_⟩
    rcases GoMap.mem_set hkv with hkv | rfl
    · exact h.2 kv hkv
    · have hmd' : (Value.obj md).WF := h.2 _ (GoMap.mem_of_get hmd)
      exact (Value.wf_obj _).mpr ((Value.wf_obj md).mp hmd').cleanFields
  · exact h

/-! ### The specification's `clean` -/

/-- The metadata fields the delta computer's specification names as server-managed. -/
def serverManaged : List String :=
  ["creationTimestamp", "deletionTimestamp", "generation", "resourceVersion", "selfLink", "uid",
    "managedFields", "ownerReferences", "finalizers"]

/-- A map with no entry. -/
def Value.isEmptyObj : Value → Bool
  | .obj [] => true
  | _ => false

/-- An entry of the metadata map that `clean` removes: a server-managed field, or `labels` or
`annotations` holding an empty map. -/
def removedByClean (e : String × Value) : Bool :=
  e.1 ∈ serverManaged || ((e.1 = "labels" || e.1 = "annotations") && e.2.isEmptyObj)

/-- The metadata value after `clean`: a map without the entries `removedByClean` names. -/
def cleanMetadataValue : Value → Value
  | .obj md => .obj (md.filter fun e => !removedByClean e)
  | v => v

/-- `clean`, as the specification states it: the top-level metadata map loses the
server-managed fields and an empty `labels` or `annotations`; nothing else changes. -/
def clean (obj : GoMap Value) : GoMap Value :=
  obj.map fun e => if e.1 = "metadata" then (e.1, cleanMetadataValue e.2) else e

theorem foldl_delete_eq_filter (ks : List String) (m : GoMap Value) :
    ks.foldl GoMap.delete m = m.filter fun e => e.1 ∉ ks := by
  induction ks generalizing m with
  | nil => simp
  | cons k ks ih =>
    rw [List.foldl_cons, ih, GoMap.delete, List.filter_filter]
    exact List.filter_congr fun e _ => by by_cases h : e.1 = k <;> simp [h]

theorem deleteIfEmpty_eq (md : GoMap Value) (key : String) :
    deleteIfEmpty md key = if (md.get key).any Value.isEmptyObj then md.delete key else md := by
  unfold deleteIfEmpty
  split
  · next m hm => cases m <;> simp [hm, Value.isEmptyObj]
  · next hm =>
    rcases h : md.get key with _ | (_ | _ | _ | m)
    · rfl
    all_goals first | rfl | exact absurd h (hm m)

/-- In a map with distinct keys, deleting a key that holds an empty map removes the one entry
of that key, holding an empty map. -/
theorem deleteIfEmpty_eq_filter {md : GoMap Value} (hn : (md.map Prod.fst).Nodup) (key : String) :
    deleteIfEmpty md key = md.filter fun e => !(e.1 = key && e.2.isEmptyObj) := by
  rw [deleteIfEmpty_eq]
  have hget : ∀ e ∈ md, e.1 = key → md.get key = some e.2 := fun e he hk =>
    hk ▸ GoMap.get_of_mem hn he
  split
  · next hempty =>
    rw [GoMap.delete]
    refine List.filter_congr fun e he => ?_
    by_cases hk : e.1 = key
    · have : e.2.isEmptyObj = true := by simpa [hget e he hk] using hempty
      simp [hk, this]
    · simp [hk]
  · next hempty =>
    refine (List.filter_eq_self.mpr fun e he => ?_).symm
    by_cases hk : e.1 = key
    · have : e.2.isEmptyObj = false := by simpa [hget e he hk] using hempty
      simp [hk, this]
    · simp [hk]

/-- On a map with distinct keys, the code's cleaning of the metadata map is `clean`'s. -/
theorem cleanFields_eq_filter {md : GoMap Value} (hn : (md.map Prod.fst).Nodup) :
    cleanFields md = md.filter fun e => !removedByClean e := by
  have hn' : ((deleteIfEmpty md "annotations").map Prod.fst).Nodup := by
    rw [deleteIfEmpty_eq_filter hn]
    exact ((List.filter_sublist md).map Prod.fst).nodup hn
  rw [cleanFields, deleteIfEmpty_eq_filter hn', deleteIfEmpty_eq_filter hn, foldl_delete_eq_filter,
    List.filter_filter, List.filter_filter]
  refine List.filter_congr fun e _ => ?_
  cases h : e.2.isEmptyObj <;> by_cases hl : e.1 = "labels" <;> by_cases ha : e.1 = "annotations" <;>
    simp_all [removedByClean, fieldsToRemove, serverManaged]

/-- **The code's `cleanMetadata` is `clean`** on every object a Go map can hold. -/
theorem cleanMetadata_eq_clean {obj : GoMap Value} (h : WFMap obj) : cleanMetadata obj = clean obj := by
  have hget : ∀ e ∈ obj, e.1 = "metadata" → obj.get "metadata" = some e.2 := fun e he hk =>
    hk ▸ GoMap.get_of_mem h.1 he
  unfold cleanMetadata clean
  split
  · next md hmd =>
    have hmdwf : WFMap md := (Value.wf_obj md).mp (h.2 _ (GoMap.mem_of_get hmd))
    rw [GoMap.set_eq_map h.1 (by simp [hmd])]
    refine List.map_congr_left fun e he => ?_
    by_cases hk : e.1 = "metadata"
    · have hv : e.2 = .obj md := Option.some.inj ((hget e he hk).symm.trans hmd)
      obtain ⟨k, v⟩ := e
      simp only at hk hv
      subst hk hv
      simp [cleanMetadataValue, cleanFields_eq_filter hmdwf.1]
    · simp [hk]
  · next hnot =>
    refine ((List.map_congr_left fun e he => ?_).trans (List.map_id' obj)).symm
    by_cases hk : e.1 = "metadata"
    · obtain ⟨k, v⟩ := e
      simp only at hk
      subst hk
      have hv := hget _ he rfl
      cases v with
      | obj md => exact absurd hv (hnot md)
      | _ => simp [cleanMetadataValue]
    · simp [hk]

/-- **`Compare` finds no difference exactly when `clean(desired)` is covered by
`clean(observed)`**, for every pair of objects Go maps can hold, in every iteration order of
every map. -/
theorem compare_eq_nil_iff (desired observed : GoMap Value) (hd : (Value.obj desired).WF)
    (ho : (Value.obj observed).WF) :
    compare desired observed = [] ↔ Covered (.obj (clean desired)) (.obj (clean observed)) := by
  have hd' := (Value.wf_obj _).mp hd
  rw [compare, walkCompare_eq_nil_iff, ← cleanMetadata_eq_clean hd',
    ← cleanMetadata_eq_clean ((Value.wf_obj _).mp ho)]
  exact covers_iff_covered ((Value.wf_obj _).mpr hd'.cleanMetadata)

/-- A desired object whose metadata differs from the observed one only in server-owned fields,
and whose data the observed object extends. -/
def sampleDesired : GoMap Value :=
  [("metadata", .obj [("name", .scalar (.str "app")), ("uid", .scalar (.str "1"))]),
    ("data", .obj [("key", .scalar (.str "v")), ("opt", .null)])]

/-- The observed counterpart of `sampleDesired`. -/
def sampleObserved : GoMap Value :=
  [("metadata", .obj [("name", .scalar (.str "app")), ("uid", .scalar (.str "2"))]),
    ("data", .obj [("key", .scalar (.str "v")), ("extra", .scalar (.int 3))])]

theorem compare_eq_nil_iff_sample :
    (Value.obj sampleDesired).WF ∧ (Value.obj sampleObserved).WF ∧
      (compare sampleDesired sampleObserved = [] ↔
        Covered (.obj (clean sampleDesired)) (.obj (clean sampleObserved))) :=
  ⟨by decide, by decide, compare_eq_nil_iff sampleDesired sampleObserved (by decide) (by decide)⟩

end Kro.Delta
