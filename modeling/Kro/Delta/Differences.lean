import Kro.Delta.Coverage
import Mathlib.Data.List.Nodup

/-!
# What `Compare` reports

`compare_eq_nil_iff` says when `Compare` reports nothing.  This module says what it reports
otherwise.  The walk goes below two maps, and below two lists of one length; anywhere else it
reports the pair, unless both are equal leaves.  So a difference sits at a path of keys and
indices that the walk reaches, and it carries the desired and the observed value there (a key
the observed map lacks reads as `nil`, as `observed[k]` does in Go).

* `ReportAt` — the positions the walk reports, by recursion on the path;
* `locate` — the walk with each difference at its path, and `walkCompare_eq_locate`, which
  shows `walkCompare` is `locate` with the paths printed the way `walkMap` and `walkSlice`
  print them;
* `PathBefore` — the order of the walk: keys in the order the desired map is visited,
  indices in increasing order; `locate_pairwise` shows the located walk lists its positions in
  that order;
* `compare_differences` — **PROVED**: for every pair of objects Go maps can hold, `Compare`
  reports every position of `ReportAt` on the cleaned objects exactly once, in the order of the
  walk, with the two values there, and nothing else; no reported position lies below another.
-/

namespace Kro.Delta

open Kro.Go

/-! ### The positions the walk reports -/

/-- The walk goes below the pair: two maps, or two lists of one length. -/
def Descends : Value → Value → Bool
  | .obj _, .obj _ => true
  | .arr d, .arr e => d.length == e.length
  | _, _ => false

/-- The walk reports the pair: it can neither go below it nor find two equal leaves. -/
def Reports (d o : Value) : Bool := !Descends d o && !d.leafEq o

/-- The child the walk compares with: under a map, a missing key reads as `nil`. -/
def Value.childD (o : Value) (e : PathElem) : Value := (o.child e).getD .null

/-- The observed value the walk meets at a path. -/
def Value.atPathD (o : Value) : List PathElem → Value
  | [] => o
  | e :: p => (o.childD e).atPathD p

/-- The walk reaches `p`, going below every pair above it, and reports the pair there. -/
def ReportAt : Value → Value → List PathElem → Prop
  | d, o, [] => Reports d o = true
  | d, o, e :: p => Descends d o = true ∧ ∃ v, d.child e = some v ∧ ReportAt v (o.childD e) p

/-- A reported position has nothing reported below it. -/
theorem ReportAt.eq_of_append {d o : Value} {p q : List PathElem} (hp : ReportAt d o p)
    (hq : ReportAt d o (p ++ q)) : q = [] := by
  induction p generalizing d o with
  | nil =>
    cases q with
    | nil => rfl
    | cons e q =>
      have hr : Reports d o = true := hp
      simp [Reports, hq.1] at hr
  | cons e p ih =>
    obtain ⟨-, v, hv, hp⟩ := hp
    obtain ⟨-, v', hv', hq⟩ := hq
    rw [hv] at hv'
    cases hv'
    exact ih hp hq

/-! ### The walk with its paths -/

mutual
/-- `walkCompare`, each difference at its path of keys and indices. -/
def locate : Value → Value → List (List PathElem × Value × Value)
  | .obj d, .obj e => locateMap d e
  | .arr d, .arr e => if d.length ≠ e.length then [([], .arr d, .arr e)] else locateSlice d e 0
  | d, o => if Reports d o then [([], d, o)] else []

/-- `walkMap`, each difference below its key. -/
def locateMap : List (String × Value) → GoMap Value → List (List PathElem × Value × Value)
  | [], _ => []
  | (k, v) :: rest, e =>
    (locate v ((e.get k).getD .null)).map (fun x => (.key k :: x.1, x.2)) ++ locateMap rest e

/-- `walkSlice`, each difference below its index. -/
def locateSlice : List Value → List Value → Nat → List (List PathElem × Value × Value)
  | d :: ds, o :: os, i =>
    (locate d o).map (fun x => (.index i :: x.1, x.2)) ++ locateSlice ds os (i + 1)
  | _, _, _ => []
end

/-- A path printed as `walkMap` and `walkSlice` extend `path`: `a.b`, `a[0]`. -/
def renderPath : String → List PathElem → String
  | path, [] => path
  | path, .key k :: p => renderPath (if path = "" then k else path ++ "." ++ k) p
  | path, .index i :: p => renderPath (path ++ "[" ++ toString i ++ "]") p

/-- The `Difference` of a located pair, its path printed after `path`. -/
def toDifference (path : String) (x : List PathElem × Value × Value) : Difference :=
  ⟨renderPath path x.1, x.2.1, x.2.2⟩

/-- The branch of `walkMap` for a key the observed map lacks gives what comparing with `nil`
gives. -/
theorem walkMap_cons (k : String) (v : Value) (rest : List (String × Value)) (e : GoMap Value)
    (path : String) :
    walkMap ((k, v) :: rest) e path =
      walkCompare v ((e.get k).getD .null) (if path = "" then k else path ++ "." ++ k) ++
        walkMap rest e path := by
  rw [walkMap]
  cases e.get k with
  | some w => rfl
  | none => cases v <;> rfl

mutual
/-- **`walkCompare` is the located walk with its paths printed.** -/
theorem walkCompare_eq_locate : ∀ (d o : Value) (path : String),
    walkCompare d o path = (locate d o).map (toDifference path)
  | .obj d, o, path => by
    cases o with
    | obj e => rw [walkCompare, locate, walkMap_eq_locateMap]
    | _ => rfl
  | .arr d, o, path => by
    cases o with
    | arr e =>
      rw [walkCompare, locate]
      split
      · rfl
      · exact walkSlice_eq_locateSlice d e path 0
    | _ => rfl
  | .null, o, path => by cases o <;> rfl
  | .scalar s, o, path => by
    cases o with
    | scalar s' =>
      by_cases h : (s == s') = true <;> simp [walkCompare, locate, Reports, Descends,
        Value.leafEq, h, toDifference, renderPath]
    | _ => rfl

theorem walkMap_eq_locateMap : ∀ (d e : List (String × Value)) (path : String),
    walkMap d e path = (locateMap d e).map (toDifference path)
  | [], e, path => rfl
  | (k, v) :: rest, e, path => by
    rw [walkMap_cons, locateMap, List.map_append, List.map_map, walkCompare_eq_locate,
      walkMap_eq_locateMap rest e path]
    rfl

theorem walkSlice_eq_locateSlice : ∀ (d o : List Value) (path : String) (i : Nat),
    walkSlice d o path i = (locateSlice d o i).map (toDifference path)
  | d :: ds, o :: os, path, i => by
    rw [walkSlice, locateSlice, List.map_append, List.map_map, walkCompare_eq_locate,
      walkSlice_eq_locateSlice ds os path (i + 1)]
    rfl
  | [], _, _, _ => rfl
  | _ :: _, [], _, _ => rfl
end

/-! ### What the located walk lists -/

theorem mem_locateMap (dm : List (String × Value)) (om : GoMap Value)
    (x : List PathElem × Value × Value) :
    x ∈ locateMap dm om ↔ ∃ k v p, (k, v) ∈ dm ∧ x.1 = .key k :: p ∧
      (p, x.2) ∈ locate v ((om.get k).getD .null) := by
  induction dm with
  | nil => simp [locateMap]
  | cons kv dm ih =>
    obtain ⟨k, v⟩ := kv
    simp only [locateMap, List.mem_append, List.mem_map, ih, List.mem_cons]
    constructor
    · rintro (⟨y, hy, rfl⟩ | ⟨k', v', p, hm, hx, hp⟩)
      · exact ⟨k, v, y.1, .inl rfl, rfl, hy⟩
      · exact ⟨k', v', p, .inr hm, hx, hp⟩
    · rintro ⟨k', v', p, hm | hm, hx, hp⟩
      · cases hm
        exact .inl ⟨(p, x.2), hp, Prod.ext hx.symm rfl⟩
      · exact .inr ⟨k', v', p, hm, hx, hp⟩

theorem mem_locateSlice (ds os : List Value) (i : Nat) (x : List PathElem × Value × Value) :
    x ∈ locateSlice ds os i ↔ ∃ j v w p, ds[j]? = some v ∧ os[j]? = some w ∧
      x.1 = .index (i + j) :: p ∧ (p, x.2) ∈ locate v w := by
  induction ds generalizing os i with
  | nil => simp [locateSlice]
  | cons d ds ih =>
    cases os with
    | nil => simp [locateSlice]
    | cons o os =>
      simp only [locateSlice, List.mem_append, List.mem_map, ih]
      constructor
      · rintro (⟨y, hy, rfl⟩ | ⟨j, v, w, p, hv, hw, hx, hp⟩)
        · exact ⟨0, d, o, y.1, List.getElem?_cons_zero, List.getElem?_cons_zero, rfl, hy⟩
        · exact ⟨j + 1, v, w, p, by simpa using hv, by simpa using hw,
            by rw [hx]; congr 2; omega, hp⟩
      · rintro ⟨j, v, w, p, hv, hw, hx, hp⟩
        cases j with
        | zero =>
          simp only [List.getElem?_cons_zero, Option.some.injEq] at hv hw
          subst hv hw
          exact .inl ⟨(p, x.2), hp, Prod.ext hx.symm rfl⟩
        | succ j =>
          exact .inr ⟨j, v, w, p, by simpa using hv, by simpa using hw,
            by rw [hx]; congr 2; omega, hp⟩

/-- The located walk lists at the empty path the pair itself, exactly when it reports it. -/
theorem mem_locate_nil (d o v w : Value) : ([], v, w) ∈ locate d o ↔ Reports d o ∧ v = d ∧ w = o := by
  cases d <;> cases o <;> simp [locate, Reports, Descends, mem_locateMap, mem_locateSlice]
  case arr.arr ds os =>
    by_cases hl : ds.length = os.length <;> simp [hl, mem_locateSlice, Value.leafEq]

theorem Value.WF.child {d c : Value} (hd : d.WF) {e : PathElem} (hc : d.child e = some c) :
    c.WF := by
  cases d with
  | obj dm =>
    cases e with
    | key k => exact ((Value.wf_obj dm).mp hd).2 _ (GoMap.mem_of_get hc)
    | index _ => cases hc
  | arr ds =>
    cases e with
    | index i => exact (Value.wf_arr ds).mp hd _ (List.getElem?_mem hc)
    | key _ => cases hc
  | _ => cases hc

/-- Below the empty path the located walk lists what the walk finds below the child. -/
theorem mem_locate_cons {d : Value} (hd : d.WF) (o : Value) (e : PathElem) (p : List PathElem)
    (y : Value × Value) :
    (e :: p, y) ∈ locate d o ↔
      Descends d o = true ∧ ∃ c, d.child e = some c ∧ (p, y) ∈ locate c (o.childD e) := by
  cases d with
  | obj dm =>
    cases o with
    | obj om =>
      have hn := ((Value.wf_obj dm).mp hd).1
      simp only [locate, mem_locateMap, Descends, true_and]
      constructor
      · rintro ⟨k, v, p', hm, hx, hp⟩
        cases hx
        exact ⟨v, GoMap.get_of_mem hn hm, hp⟩
      · rintro ⟨c, hc, hp⟩
        cases e with
        | key k => exact ⟨k, c, p, GoMap.mem_of_get hc, rfl, hp⟩
        | index _ => cases hc
    | _ => simp [locate, Reports, Descends]
  | arr ds =>
    cases o with
    | arr os =>
      by_cases hl : ds.length = os.length
      · simp only [locate, hl, ne_eq, not_true_eq_false, if_false, mem_locateSlice, Descends,
          beq_self_eq_true, true_and, Nat.zero_add]
        constructor
        · rintro ⟨j, v, w, p', hv, hw, hx, hp⟩
          cases hx
          exact ⟨v, hv, by simpa [Value.childD, Value.child, hw] using hp⟩
        · rintro ⟨c, hc, hp⟩
          cases e with
          | index j =>
            obtain ⟨hj, -⟩ := List.getElem?_eq_some_iff.mp hc
            have hw : os[j]? = some os[j] := List.getElem?_eq_getElem (hl ▸ hj)
            exact ⟨j, c, os[j], p, hc, hw, rfl, by simpa [Value.childD, Value.child, hw] using hp⟩
          | key _ => cases hc
      · simp [locate, hl, Descends]
    | _ => simp [locate, Reports, Descends]
  | _ => cases o <;> simp [locate, Reports, Descends]

/-- **The located walk lists exactly the positions `ReportAt` names**, each with the desired and
the observed value there. -/
theorem mem_locate {d : Value} (hd : d.WF) (o : Value) (x : List PathElem × Value × Value) :
    x ∈ locate d o ↔ ReportAt d o x.1 ∧ d.atPath x.1 = some x.2.1 ∧ o.atPathD x.1 = x.2.2 := by
  obtain ⟨p, v, w⟩ := x
  induction p generalizing d o with
  | nil =>
    rw [mem_locate_nil]
    simp only [ReportAt, Value.atPath_nil, Value.atPathD, Option.some.injEq]
    constructor
    · rintro ⟨h, rfl, rfl⟩; exact ⟨h, rfl, rfl⟩
    · rintro ⟨h, rfl, rfl⟩; exact ⟨h, rfl, rfl⟩
  | cons e p ih =>
    rw [mem_locate_cons hd]
    simp only [ReportAt, Value.atPath_cons, Value.atPathD]
    constructor
    · rintro ⟨hs, c, hc, hp⟩
      obtain ⟨hr, hv, hw⟩ := (ih (hd.child hc) _).mp hp
      exact ⟨⟨hs, c, hc, hr⟩, by rw [hc]; exact hv, hw⟩
    · rintro ⟨⟨hs, c, hc, hr⟩, hv, hw⟩
      rw [hc] at hv
      exact ⟨hs, c, hc, (ih (hd.child hc) _).mpr ⟨hr, hv, hw⟩⟩

/-! ### Each position once -/

mutual
theorem locate_nodup : ∀ (d o : Value), d.WF → ((locate d o).map (·.1)).Nodup
  | .obj dm, .obj om, hd => by
    have hwf := (Value.wf_obj dm).mp hd
    exact locateMap_nodup dm om hwf.1 ((keysUniqueMap_iff dm).mpr hwf.2)
  | .arr ds, .arr os, hd => by
    rw [locate]
    split
    · simp
    · exact locateSlice_nodup ds os 0 ((keysUniqueList_iff ds).mpr ((Value.wf_arr ds).mp hd))
  | .obj _, .null, _ | .obj _, .scalar _, _ | .obj _, .arr _, _
  | .arr _, .null, _ | .arr _, .scalar _, _ | .arr _, .obj _, _
  | .null, _, _ | .scalar _, _, _ => by
    simp only [locate]; split <;> simp

theorem locateMap_nodup : ∀ (dm : List (String × Value)) (om : GoMap Value),
    (dm.map Prod.fst).Nodup → keysUniqueMap dm → ((locateMap dm om).map (·.1)).Nodup
  | [], _, _, _ => List.nodup_nil
  | (k, v) :: rest, om, hn, hwf => by
    simp only [keysUniqueMap, Bool.and_eq_true] at hwf
    simp only [List.map_cons, List.nodup_cons] at hn
    simp only [locateMap, List.map_append, List.map_map]
    refine List.nodup_append.mpr ⟨?_, locateMap_nodup rest om hn.2 hwf.2, ?_⟩
    · have := (locate_nodup v ((om.get k).getD .null) hwf.1).map (List.cons_injective (a := .key k))
      simpa [List.map_map] using this
    · intro q hq hq'
      obtain ⟨x, -, rfl⟩ := List.mem_map.mp hq
      obtain ⟨y, hy, hyq⟩ := List.mem_map.mp hq'
      obtain ⟨k', v', p, hm, hp, -⟩ := (mem_locateMap rest om y).mp hy
      simp only [Function.comp, hp, List.cons.injEq, PathElem.key.injEq] at hyq
      exact hn.1 (hyq.1 ▸ List.mem_map_of_mem Prod.fst hm)

theorem locateSlice_nodup : ∀ (ds os : List Value) (i : Nat), keysUniqueList ds →
    ((locateSlice ds os i).map (·.1)).Nodup
  | d :: ds, o :: os, i, hwf => by
    simp only [keysUniqueList, Bool.and_eq_true] at hwf
    simp only [locateSlice, List.map_append, List.map_map]
    refine List.nodup_append.mpr ⟨?_, locateSlice_nodup ds os (i + 1) hwf.2, ?_⟩
    · have := (locate_nodup d o hwf.1).map (List.cons_injective (a := .index i))
      simpa [List.map_map] using this
    · intro q hq hq'
      obtain ⟨x, -, rfl⟩ := List.mem_map.mp hq
      obtain ⟨y, hy, hyq⟩ := List.mem_map.mp hq'
      obtain ⟨j, v, w, p, -, -, hp, -⟩ := (mem_locateSlice ds os (i + 1) y).mp hy
      simp only [Function.comp, hp, List.cons.injEq, PathElem.index.injEq] at hyq
      omega
  | [], _, _, _ => List.nodup_nil
  | _ :: _, [], _, _ => List.nodup_nil
end

/-! ### In the order of the walk -/

/-- Where a step below a node falls in the walk: a key at its place in the order `range`
visits the map, an index at its value. -/
def Value.stepRank : Value → PathElem → Nat
  | .obj m, .key k => (m.map Prod.fst).indexOf k
  | _, .index i => i
  | _, .key _ => 0

/-- `p` comes before `q` in the walk over `d`: below the node where they part, `p` takes an
earlier key or a smaller index. -/
def PathBefore : Value → List PathElem → List PathElem → Prop
  | d, e :: p, e' :: q =>
    if e = e' then ∃ c, d.child e = some c ∧ PathBefore c p q else d.stepRank e < d.stepRank e'
  | _, _, _ => False

/-- Two positions below one child keep their order. -/
theorem PathBefore.cons {d c : Value} {e : PathElem} (hc : d.child e = some c)
    {p q : List PathElem} (h : PathBefore c p q) : PathBefore d (e :: p) (e :: q) := by
  rw [PathBefore, if_pos rfl]
  exact ⟨c, hc, h⟩

theorem indexOf_lt_of_suffix {pre : List String} {k k' : String} {rest : List String}
    (hk : k ∉ pre) (hk' : k' ∉ pre) (hne : k' ≠ k) :
    (pre ++ k :: rest).indexOf k < (pre ++ k :: rest).indexOf k' := by
  rw [List.indexOf_append_of_not_mem hk, List.indexOf_append_of_not_mem hk',
    List.indexOf_cons_self, List.indexOf_cons_ne _ (Ne.symm hne)]
  omega

mutual
/-- **The located walk lists its positions in the order of the walk.** -/
theorem locate_pairwise : ∀ (d o : Value), d.WF →
    (locate d o).Pairwise fun x y => PathBefore d x.1 y.1
  | .obj dm, .obj om, hd => by
    have hwf := (Value.wf_obj dm).mp hd
    exact locateMap_pairwise [] dm om hwf.1 ((keysUniqueMap_iff dm).mpr hwf.2)
  | .arr ds, .arr os, hd => by
    rw [locate]
    split
    · exact List.pairwise_singleton _ _
    · exact locateSlice_pairwise [] ds os ((keysUniqueList_iff ds).mpr ((Value.wf_arr ds).mp hd))
  | .obj _, .null, _ | .obj _, .scalar _, _ | .obj _, .arr _, _
  | .arr _, .null, _ | .arr _, .scalar _, _ | .arr _, .obj _, _
  | .null, _, _ | .scalar _, _, _ => by
    simp only [locate]; split <;> simp

theorem locateMap_pairwise : ∀ (pre dm : List (String × Value)) (om : GoMap Value),
    ((pre ++ dm).map Prod.fst).Nodup → keysUniqueMap dm →
    (locateMap dm om).Pairwise fun x y => PathBefore (.obj (pre ++ dm)) x.1 y.1
  | _, [], _, _, _ => List.Pairwise.nil
  | pre, (k, v) :: rest, om, hn, hwf => by
    simp only [keysUniqueMap, Bool.and_eq_true] at hwf
    have hget : (Value.obj (pre ++ (k, v) :: rest)).child (.key k) = some v :=
      GoMap.get_of_mem hn (List.mem_append_right _ (List.mem_cons_self _ _))
    have ih := locateMap_pairwise (pre ++ [(k, v)]) rest om (by simpa using hn) hwf.2
    simp only [List.append_assoc, List.singleton_append] at ih
    have hkeys : ((pre ++ (k, v) :: rest).map Prod.fst) = pre.map Prod.fst ++ k :: rest.map Prod.fst := by
      simp
    rw [hkeys, List.nodup_append, List.nodup_cons] at hn
    rw [locateMap, List.pairwise_append, List.pairwise_map]
    refine ⟨(locate_pairwise v _ hwf.1).imp fun h => PathBefore.cons hget h, ih, ?_⟩
    intro a ha b hb
    obtain ⟨x, -, rfl⟩ := List.mem_map.mp ha
    obtain ⟨k', v', p, hm, hp, -⟩ := (mem_locateMap rest om b).mp hb
    have hk' : k' ∈ rest.map Prod.fst := List.mem_map_of_mem Prod.fst hm
    have hne : k' ≠ k := fun h => hn.2.1.1 (h ▸ hk')
    rw [hp, PathBefore, if_neg (by simpa using hne.symm)]
    show ((pre ++ (k, v) :: rest).map Prod.fst).indexOf k <
      ((pre ++ (k, v) :: rest).map Prod.fst).indexOf k'
    rw [hkeys]
    exact indexOf_lt_of_suffix (fun h => hn.2.2 h (List.mem_cons_self _ _))
      (fun h => hn.2.2 h (List.mem_cons_of_mem _ hk')) hne

theorem locateSlice_pairwise : ∀ (pre ds os : List Value), keysUniqueList ds →
    (locateSlice ds os pre.length).Pairwise fun x y => PathBefore (.arr (pre ++ ds)) x.1 y.1
  | pre, d :: ds, o :: os, hwf => by
    simp only [keysUniqueList, Bool.and_eq_true] at hwf
    have hchild : (Value.arr (pre ++ d :: ds)).child (.index pre.length) = some d := by
      show (pre ++ d :: ds)[pre.length]? = some d
      rw [List.getElem?_append_right (le_refl _), Nat.sub_self, List.getElem?_cons_zero]
    have ih := locateSlice_pairwise (pre ++ [d]) ds os hwf.2
    simp only [List.append_assoc, List.singleton_append, List.length_append, List.length_singleton]
      at ih
    rw [locateSlice, List.pairwise_append, List.pairwise_map]
    refine ⟨(locate_pairwise d o hwf.1).imp fun h => PathBefore.cons hchild h, ih, ?_⟩
    intro a ha b hb
    obtain ⟨x, -, rfl⟩ := List.mem_map.mp ha
    obtain ⟨j, v, w, p, -, -, hp, -⟩ := (mem_locateSlice ds os (pre.length + 1) b).mp hb
    rw [hp, PathBefore, if_neg (by simp only [PathElem.index.injEq]; omega)]
    show pre.length < pre.length + 1 + j
    omega
  | _, [], _, _ => List.Pairwise.nil
  | _, _ :: _, [], _ => List.Pairwise.nil
end

/-! ### `Compare` -/

/-- **What `Compare` reports**: for every pair of objects Go maps can hold, the differences are
those of a list of positions, printed as the walk prints them, that holds every position where
the walk reports on `clean(desired)` and `clean(observed)` exactly once, with the desired and the
observed value there, and nothing else; the positions come in the order of the walk, keys in the
order the desired maps are visited and indices in increasing order, and no listed position lies
below another. -/
theorem compare_differences (desired observed : GoMap Value) (hd : (Value.obj desired).WF)
    (ho : (Value.obj observed).WF) :
    ∃ L : List (List PathElem × Value × Value),
      compare desired observed = L.map (toDifference "") ∧ (L.map (·.1)).Nodup ∧
      L.Pairwise (fun x y => PathBefore (.obj (clean desired)) x.1 y.1) ∧
      (∀ x, x ∈ L ↔ ReportAt (.obj (clean desired)) (.obj (clean observed)) x.1 ∧
        (Value.obj (clean desired)).atPath x.1 = some x.2.1 ∧
        (Value.obj (clean observed)).atPathD x.1 = x.2.2) ∧
      ∀ x ∈ L, ∀ y ∈ L, x.1 <+: y.1 → x.1 = y.1 := by
  have hd' := (Value.wf_obj _).mp hd
  have hD : (Value.obj (clean desired)).WF := by
    rw [← cleanMetadata_eq_clean hd']
    exact (Value.wf_obj _).mpr hd'.cleanMetadata
  rw [compare, cleanMetadata_eq_clean hd', cleanMetadata_eq_clean ((Value.wf_obj _).mp ho)]
  refine ⟨_, walkCompare_eq_locate _ _ _, locate_nodup _ _ hD, locate_pairwise _ _ hD,
    mem_locate hD _, ?_⟩
  rintro x hx y hy ⟨q, hq⟩
  have hrx := ((mem_locate hD _ x).mp hx).1
  have hry := ((mem_locate hD _ y).mp hy).1
  rw [← hq] at hry
  rw [← hq, ReportAt.eq_of_append hrx hry, List.append_nil]

/-- A desired object whose replica count and port list the observed object changed. -/
def driftDesired : GoMap Value :=
  [("metadata", .obj [("name", .scalar (.str "app"))]),
    ("spec", .obj [("replicas", .scalar (.int 3)),
      ("ports", .arr [.scalar (.int 80), .scalar (.int 443)])])]

/-- The observed counterpart of `driftDesired`. -/
def driftObserved : GoMap Value :=
  [("metadata", .obj [("name", .scalar (.str "app")), ("uid", .scalar (.str "7"))]),
    ("spec", .obj [("replicas", .scalar (.int 2)), ("ports", .arr [.scalar (.int 80)])])]

theorem compare_differences_sample :
    (Value.obj driftDesired).WF ∧ (Value.obj driftObserved).WF ∧
      ∃ L : List (List PathElem × Value × Value),
        compare driftDesired driftObserved = L.map (toDifference "") ∧ (L.map (·.1)).Nodup ∧
        L.Pairwise (fun x y => PathBefore (.obj (clean driftDesired)) x.1 y.1) ∧
        (∀ x, x ∈ L ↔
          ReportAt (.obj (clean driftDesired)) (.obj (clean driftObserved)) x.1 ∧
          (Value.obj (clean driftDesired)).atPath x.1 = some x.2.1 ∧
          (Value.obj (clean driftObserved)).atPathD x.1 = x.2.2) ∧
        ∀ x ∈ L, ∀ y ∈ L, x.1 <+: y.1 → x.1 = y.1 :=
  ⟨by decide, by decide, compare_differences driftDesired driftObserved (by decide) (by decide)⟩

example : (compare driftDesired driftObserved).map (·.path) = ["spec.replicas", "spec.ports"] := by
  decide

end Kro.Delta
