import Kro.Go.Runtime
import Mathlib.Data.List.Dedup
import Mathlib.Data.List.Sort
import Mathlib.Data.String.Basic

/-!
# The RBAC rules of `kubectl kro generate rbac`

`generateRBAC` takes the group-version-resource of every resource of the graph, in
topological order, and gathers the resources of each API group in a map `resourcesByGroup`,
each resource once.  It then emits one `PolicyRule` per group, the groups sorted by
`sort.Strings`, each granting kro's six default verbs on the group's resources, inside a
`ClusterRole` or a `Role`.

* `policyRules_eq` — **PROVED**: the rules are, for each API group of the graph in sorted
  order, one rule with the six verbs, that group alone, and its resources in the order they
  first occur;
* `rulesOf_perm` — **PROVED**: the order in which `range` visits `resourcesByGroup` does not
  change the rules.

The graph builder that gives the resources their GVRs is not in this source: the list of GVRs
is the input here.
-/

namespace Kro.Rbac

open Kro.Go

/-- `schema.GroupVersionResource`. -/
structure GroupVersionResource where
  group : String
  version : String
  resource : String
  deriving Repr, DecidableEq

/-- `rbacv1.PolicyRule`, with the three fields `generateRBAC` sets. -/
structure PolicyRule where
  verbs : List String
  apiGroups : List String
  resources : List String
  deriving Repr, DecidableEq

/-- `kroDefaultVerbs`. -/
def kroDefaultVerbs : List String := ["get", "list", "create", "update", "patch", "delete"]

/-- `resourcesByGroup.addGVR`: a new group gets the list of its resource; a known group gets
the resource appended unless the loop over its list finds it. -/
def addGVR (rbg : GoMap (List String)) (gvr : GroupVersionResource) : GoMap (List String) :=
  match GoMap.get rbg gvr.group with
  | none => GoMap.set rbg gvr.group [gvr.resource]
  | some resources =>
    if resources.elem gvr.resource then rbg
    else GoMap.set rbg gvr.group (resources ++ [gvr.resource])

/-- `resourcesByGroup.groups`: the groups in the order `range` visits them, then
`sort.Strings`.  Go compares strings byte by byte, which on UTF-8 is the order of their code
points, the order of `String` here; the keys are distinct, so every sort gives one list. -/
def groups (rbg : GoMap (List String)) : List String := (rbg.map Prod.fst).insertionSort (· ≤ ·)

/-- The loop of `generateRBAC` over `resourcesByGroup.groups()`. -/
def rulesOf (rbg : GoMap (List String)) : List PolicyRule :=
  (groups rbg).map fun group => ⟨kroDefaultVerbs, [group], (GoMap.get rbg group).getD []⟩

/-- The rules of `generateRBAC` for the GVRs of the graph's resources. -/
def policyRules (gvrs : List GroupVersionResource) : List PolicyRule :=
  rulesOf (gvrs.foldl addGVR [])

/-- The object `generateRBAC` prints. -/
inductive RoleObject where
  | clusterRole (name : String) (rules : List PolicyRule)
  | role (rgNamespace name : String) (rules : List PolicyRule)
  deriving Repr, DecidableEq

/-- The end of `generateRBAC`: the `switch` on the scope.  With another scope nothing is
marshalled, and the command prints an empty line and returns `nil`. -/
def generateRBAC (scope rgName rgNamespace : String) (gvrs : List GroupVersionResource) :
    Option RoleObject :=
  let metadataName := rgName ++ "-cluster-role"
  if scope = "cluster" then some (.clusterRole metadataName (policyRules gvrs))
  else if scope = "namespace" then some (.role rgNamespace metadataName (policyRules gvrs))
  else none

/-! ### What the map holds -/

/-- The distinct items of a list, each where it first occurs (`dedup` keeps the last). -/
def firstOccurrences (l : List String) : List String := l.reverse.dedup.reverse

theorem mem_firstOccurrences {l : List String} {a : String} : a ∈ firstOccurrences l ↔ a ∈ l := by
  simp [firstOccurrences, List.mem_dedup]

theorem firstOccurrences_append (l : List String) (a : String) :
    firstOccurrences (l ++ [a]) = if a ∈ l then firstOccurrences l else firstOccurrences l ++ [a] := by
  split
  · simp [firstOccurrences, List.dedup_cons_of_mem (List.mem_reverse.mpr ‹_›)]
  · simp [firstOccurrences, List.dedup_cons_of_not_mem (mt List.mem_reverse.mp ‹_›)]

/-- The API groups of the GVRs, each once, in the order they first occur. -/
def groupsOf (gvrs : List GroupVersionResource) : List String :=
  firstOccurrences (gvrs.map (·.group))

/-- The resources of one API group, each once, in the order they first occur. -/
def resourcesOf (gvrs : List GroupVersionResource) (g : String) : List String :=
  firstOccurrences ((gvrs.filter (·.group = g)).map (·.resource))

theorem resourcesOf_append (gvrs : List GroupVersionResource) (x : GroupVersionResource)
    (g : String) : resourcesOf (gvrs ++ [x]) g =
      if x.group = g then firstOccurrences ((gvrs.filter (·.group = g)).map (·.resource) ++
        [x.resource]) else resourcesOf gvrs g := by
  by_cases hx : x.group = g <;> simp [resourcesOf, List.filter_append, hx]

theorem groupsOf_append (gvrs : List GroupVersionResource) (x : GroupVersionResource) :
    groupsOf (gvrs ++ [x]) =
      if x.group ∈ gvrs.map (·.group) then groupsOf gvrs else groupsOf gvrs ++ [x.group] := by
  simp only [groupsOf, List.map_append, List.map_cons, List.map_nil, firstOccurrences_append]

/-- `rbg` is the map the loop has built from `gvrs`: its keys are the groups in the order they
first occur, and each group holds its resources, each once, in the order they first occur. -/
def Represents (gvrs : List GroupVersionResource) (rbg : GoMap (List String)) : Prop :=
  rbg.map Prod.fst = groupsOf gvrs ∧ ∀ g ∈ groupsOf gvrs, GoMap.get rbg g = some (resourcesOf gvrs g)

/-- One `addGVR` extends the map to one more GVR. -/
theorem Represents.addGVR {gvrs : List GroupVersionResource} {rbg : GoMap (List String)}
    (h : Represents gvrs rbg) (x : GroupVersionResource) :
    Represents (gvrs ++ [x]) (addGVR rbg x) := by
  obtain ⟨hkeys, hget⟩ := h
  unfold Represents
  rw [groupsOf_append]
  cases hx : GoMap.get rbg x.group with
  | none =>
    -- a new group: added last, with the one resource
    have hnew : x.group ∉ gvrs.map (·.group) := fun h => by
      rw [hget _ (mem_firstOccurrences.mpr h)] at hx; cases hx
    have hfilter : gvrs.filter (·.group = x.group) = [] :=
      List.filter_eq_nil_iff.mpr fun y hy hyx => hnew (List.mem_map.mpr ⟨y, hy, by simpa using hyx⟩)
    rw [if_neg hnew, Kro.Rbac.addGVR, hx]
    refine ⟨by rw [GoMap.keys_set_of_get_none hx, hkeys], fun g hg => ?_⟩
    rw [GoMap.get_set, resourcesOf_append]
    by_cases hg' : g = x.group
    · subst hg'; simp [hfilter, firstOccurrences]
    · rw [if_neg hg', if_neg (Ne.symm hg')]
      exact hget g (by simpa [hg'] using hg)
  | some resources =>
    -- a known group: the resource is appended unless the group lists it
    have hold : x.group ∈ gvrs.map (·.group) := by
      rw [← mem_firstOccurrences, ← groupsOf, ← hkeys]
      exact List.mem_map_of_mem Prod.fst (GoMap.mem_of_get hx)
    have hres : resources = resourcesOf gvrs x.group := by
      rw [hget _ (mem_firstOccurrences.mpr hold)] at hx; cases hx; rfl
    have hin : resources.elem x.resource ↔
        x.resource ∈ (gvrs.filter (·.group = x.group)).map (·.resource) := by
      rw [hres, resourcesOf, List.elem_iff, mem_firstOccurrences]
    rw [if_pos hold, Kro.Rbac.addGVR, hx]
    dsimp only
    split
    · refine ⟨hkeys, fun g hg => ?_⟩
      rw [resourcesOf_append]
      by_cases hg' : x.group = g
      · subst hg'
        rw [if_pos rfl, firstOccurrences_append, if_pos (hin.mp ‹_›), ← resourcesOf, ← hres, hx]
      · rw [if_neg hg']; exact hget g hg
    · refine ⟨by rw [GoMap.keys_set (by simp [hx]), hkeys], fun g hg => ?_⟩
      rw [GoMap.get_set, resourcesOf_append]
      by_cases hg' : g = x.group
      · subst hg'
        rw [if_pos rfl, if_pos rfl, firstOccurrences_append, if_neg (mt hin.mpr ‹_›),
          ← resourcesOf, ← hres]
      · rw [if_neg hg', if_neg (Ne.symm hg')]; exact hget g hg

/-- **The map the loop builds** represents all the GVRs. -/
theorem represents_foldl (gvrs : List GroupVersionResource) :
    Represents gvrs (gvrs.foldl addGVR []) := by
  induction gvrs using List.reverseRecOn with
  | nil => simp [Represents, groupsOf, firstOccurrences]
  | append_singleton gvrs x ih => rw [List.foldl_append, List.foldl_cons, List.foldl_nil]; exact ih.addGVR x

/-! ### The rules -/

/-- **The rules of `generateRBAC`**: for each API group of the graph, in sorted order, one rule
with kro's six default verbs, that group alone, and the group's resources, each once, in the
order they first occur in the topological order. -/
theorem policyRules_eq (gvrs : List GroupVersionResource) :
    policyRules gvrs = ((groupsOf gvrs).insertionSort (· ≤ ·)).map fun g =>
      ⟨kroDefaultVerbs, [g], resourcesOf gvrs g⟩ := by
  obtain ⟨hkeys, hget⟩ := represents_foldl gvrs
  rw [policyRules, rulesOf, groups, hkeys]
  refine List.map_congr_left fun g hg => ?_
  rw [hget g ((List.perm_insertionSort _ _).mem_iff.mp hg)]
  rfl

example : policyRules [⟨"apps", "v1", "deployments"⟩, ⟨"apps", "v1", "statefulsets"⟩,
    ⟨"apps", "v1", "deployments"⟩] =
      [⟨kroDefaultVerbs, ["apps"], ["deployments", "statefulsets"]⟩] := by
  decide

/-- **The rules do not depend on the order in which `range` visits `resourcesByGroup`**: any
other listing of the same entries gives the same rules. -/
theorem rulesOf_perm {rbg rbg' : GoMap (List String)} (hn : (rbg.map Prod.fst).Nodup)
    (hp : rbg'.Perm rbg) : rulesOf rbg' = rulesOf rbg := by
  have hgroups : groups rbg' = groups rbg :=
    List.eq_of_perm_of_sorted ((List.perm_insertionSort _ _).trans
      ((hp.map Prod.fst).trans (List.perm_insertionSort _ _).symm))
      (List.sorted_insertionSort _ _) (List.sorted_insertionSort _ _)
  simp only [rulesOf, hgroups, GoMap.get_perm hn hp]

theorem rulesOf_perm_sample :
    ([("apps", ["deployments"]), ("", ["services"])].map Prod.fst).Nodup ∧
      [("", ["services"]), ("apps", ["deployments"])].Perm
        [("apps", ["deployments"]), ("", ["services"])] ∧
      rulesOf [("", ["services"]), ("apps", ["deployments"])] =
        rulesOf [("apps", ["deployments"]), ("", ["services"])] :=
  have hn : ([("apps", ["deployments"]), ("", ["services"])].map Prod.fst).Nodup := by decide
  have hp : [("", ["services"]), ("apps", ["deployments"])].Perm
      [("apps", ["deployments"]), ("", ["services"])] := .swap _ _ _
  ⟨hn, hp, rulesOf_perm hn hp⟩

end Kro.Rbac
