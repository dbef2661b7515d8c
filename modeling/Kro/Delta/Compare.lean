import Kro.Go.Runtime
import Mathlib.Data.Rat.Defs

/-!
# The delta computer: `delta.Compare` over unstructured objects

`pkg/controller/instance/delta/delta.go` decides whether the reconciler issues an apply: it
deep-copies the desired and the observed object, strips server-managed metadata from both
(`cleanMetadata`), and walks them together, collecting a `Difference` at every path where they
disagree.

The objects are the `map[string]interface{}` of `unstructured.Unstructured`, whose leaves are
JSON values: `nil`, `string`, `int64`, `float64`, `bool`, `[]interface{}` and nested maps.
`Value` is that tree; a map is a `GoMap`, listed in the order `range` visits it.  A
`float64` is its value as a rational: Go's `!=` on finite floats compares values, so `0.0`
and `-0.0` are one leaf here as they are one to `!=`.  An `int64` is an `Int`; only equality
of leaves is ever used.

The walk is one mutual structural recursion, as in the source; `walkSlice` is the loop over
indices, and the length check that opens it in Go sits in the `.arr` case of `walkCompare`.
-/

namespace Kro.Delta

open Kro.Go

/-- A non-null JSON leaf with its Go dynamic type. -/
inductive Scalar where
  | str (s : String)
  | int (i : Int)
  | float (q : ℚ)
  | bool (b : Bool)
  deriving Repr, DecidableEq

/-- An `interface{}` of an unstructured object. -/
inductive Value where
  | null
  | scalar (s : Scalar)
  | arr (xs : List Value)
  | obj (m : List (String × Value))
  deriving Repr

/-- Go's `==` on two interfaces of which the first holds neither a map nor a slice: same dynamic
type and equal value (so no panic on uncomparable types can arise). -/
def Value.leafEq : Value → Value → Bool
  | .null, .null => true
  | .scalar a, .scalar b => a == b
  | _, _ => false

/-- `v == nil`. -/
def Value.isNil : Value → Bool
  | .null => true
  | _ => false

/-- `Difference`: one path where desired and observed disagree. -/
structure Difference where
  path : String
  desired : Value
  observed : Value
  deriving Repr

mutual
/-- `walkCompare`. -/
def walkCompare : Value → Value → String → List Difference
  | .obj d, o, path => match o with
    | .obj e => walkMap d e path
    | _ => [⟨path, .obj d, o⟩]
  | .arr d, o, path => match o with
    | .arr e => if d.length ≠ e.length then [⟨path, .arr d, .arr e⟩] else walkSlice d e path 0
    | _ => [⟨path, .arr d, o⟩]
  | d, o, path => if d.leafEq o then [] else [⟨path, d, o⟩]

/-- `walkMap`: every key of desired, in iteration order; a key missing from observed is a
difference unless its desired value is `nil`, which is then compared with the zero value. -/
def walkMap : GoMap Value → GoMap Value → String → List Difference
  | [], _, _ => []
  | (k, desiredVal) :: rest, observed, path =>
    let newPath := if path = "" then k else path ++ "." ++ k
    let observedVal := (observed.get k).getD .null
    let present := (observed.get k).isSome
    (if !present && !desiredVal.isNil then [⟨newPath, desiredVal, .null⟩]
      else walkCompare desiredVal observedVal newPath) ++
      walkMap rest observed path

/-- The loop of `walkSlice`, from index `i` on. -/
def walkSlice : List Value → List Value → String → Nat → List Difference
  | d :: ds, o :: os, path, i =>
    walkCompare d o (path ++ "[" ++ toString i ++ "]") ++ walkSlice ds os path (i + 1)
  | _, _, _, _ => []
end

/-- The metadata fields the API server owns. -/
def fieldsToRemove : List String :=
  ["creationTimestamp", "deletionTimestamp", "generation", "resourceVersion", "selfLink", "uid",
    "managedFields", "ownerReferences", "finalizers"]

/-- Delete `key` from the metadata map when it holds an empty map. -/
def deleteIfEmpty (metadata : GoMap Value) (key : String) : GoMap Value :=
  match metadata.get key with
  | some (.obj m) => if m.length = 0 then metadata.delete key else metadata
  | _ => metadata

/-- The body of `cleanMetadata` on the metadata map itself. -/
def cleanFields (metadata : GoMap Value) : GoMap Value :=
  fieldsToRemove.foldl GoMap.delete
    (deleteIfEmpty (deleteIfEmpty metadata "annotations") "labels")

/-- `cleanMetadata`: only when `metadata` holds a map. -/
def cleanMetadata (obj : GoMap Value) : GoMap Value :=
  match obj.get "metadata" with
  | some (.obj metadata) => obj.set "metadata" (.obj (cleanFields metadata))
  | _ => obj

/-- `Compare`: its `error` result is always `nil` and is left out. -/
def compare (desired observed : GoMap Value) : List Difference :=
  walkCompare (.obj (cleanMetadata desired)) (.obj (cleanMetadata observed)) ""

end Kro.Delta
