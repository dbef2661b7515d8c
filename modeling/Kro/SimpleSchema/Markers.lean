import Kro.Go.Runtime

/-!
# The marker parser of the schema compiler

`pkg/simpleschema/markers.go` reads the tail of a field such as
`string | required=true description="The name"` into a list of markers.  `parseMarkers` is a
single pass over the runes of the text with six pieces of state (the markers so far, the
marker being read, whether the pass is inside quotes, the bracket depth, the buffer, and
whether the previous rune was a backslash inside quotes); each rune goes to the first case of
a seven-way `switch` that matches.

Here the pass is `step`, one rune, and `run`, the loop; `finish` is what follows the loop.
`processValue` strips the quotes of a quoted value, slicing `value[1:len(value)-1]`, which
panics when the value is a lone `"`: that run-time panic is kept as `GoError.panic`.
-/

namespace Kro.SimpleSchema

open Kro.Go

/-- `MarkerType`. -/
inductive MarkerType where
  | required | default | description | minimum | maximum | validation | enum | immutable
  | pattern | uniqueItems | minLength | maxLength | minItems | maxItems
  deriving Repr, DecidableEq

/-- The string each `MarkerType` constant stands for. -/
def MarkerType.name : MarkerType → String
  | .required => "required"
  | .default => "default"
  | .description => "description"
  | .minimum => "minimum"
  | .maximum => "maximum"
  | .validation => "validation"
  | .enum => "enum"
  | .immutable => "immutable"
  | .pattern => "pattern"
  | .uniqueItems => "uniqueItems"
  | .minLength => "minLength"
  | .maxLength => "maxLength"
  | .minItems => "minItems"
  | .maxItems => "maxItems"

/-- The constants of the `switch` in `markerTypeFromString`. -/
def MarkerType.all : List MarkerType :=
  [.required, .default, .description, .minimum, .maximum, .validation, .enum, .immutable,
    .pattern, .uniqueItems, .minLength, .maxLength, .minItems, .maxItems]

/-- `markerTypeFromString`. -/
def markerTypeFromString (s : String) : Except String MarkerType :=
  match MarkerType.all.find? (·.name = s) with
  | some t => .ok t
  | none => .error ("unknown marker type: " ++ s)

theorem markerTypeFromString_name (t : MarkerType) : markerTypeFromString t.name = .ok t := by
  cases t <;> rfl

theorem markerTypeFromString_ok {s : String} {t : MarkerType}
    (h : markerTypeFromString s = .ok t) : t.name = s := by
  unfold markerTypeFromString at h
  split at h
  · next t' ht => cases h; simpa using List.find?_some ht
  · cases h

/-- `Marker`. -/
structure Marker where
  markerType : MarkerType
  key : String
  value : String
  deriving Repr, DecidableEq

/-! ### `processValue` and `unescapeString` -/

/-- The loop of `unescapeString`, with its `escaped` flag: an escaped `"` or `\` loses its
backslash, any other escaped rune keeps it, and a trailing lone backslash is dropped. -/
def unescapeLoop : Bool → List Char → List Char
  | _, [] => []
  | true, c :: cs => (if c ≠ '"' ∧ c ≠ '\\' then ['\\', c] else [c]) ++ unescapeLoop false cs
  | false, c :: cs => if c = '\\' then unescapeLoop true cs else c :: unescapeLoop false cs

/-- `unescapeString`. -/
def unescapeString (s : List Char) : List Char := unescapeLoop false s

/-- `processValue`: a value with a `"` at both ends loses them and is unescaped; any other value
is trimmed.  `value[1 : len(value)-1]` panics on the one-rune value `"`. -/
def processValue (value : List Char) : Except GoError String :=
  if value.head? = some '"' ∧ value.getLast? = some '"' then
    if value.length < 2 then .error (.panic "runtime error: slice bounds out of range [1:0]")
    else .ok (String.mk (unescapeString (value.drop 1).dropLast))
  else .ok (String.mk (trimSpace value))

/-! ### `parseMarkers` -/

/-- The local variables of `parseMarkers`. -/
structure ParseState where
  result : List Marker
  currentMarker : Option Marker
  inQuotes : Bool
  bracketCount : Int
  buffer : List Char
  escaped : Bool
  deriving Repr, DecidableEq

/-- Their zero values. -/
def ParseState.init : ParseState := ⟨[], none, false, 0, [], false⟩

/-- The `switch` on one rune, its cases in source order. -/
def step (st : ParseState) (char : Char) : Except GoError ParseState :=
  if char = '=' ∧ st.currentMarker = none ∧ st.inQuotes = false ∧ st.bracketCount = 0 then
    let key := trimSpace st.buffer
    if key = [] then fail "empty marker key"
    else match markerTypeFromString (String.mk key) with
      | .error err => fail ("invalid marker key \x27" ++ String.mk key ++ "\x27: " ++ err)
      | .ok markerType =>
        .ok { st with currentMarker := some ⟨markerType, String.mk key, ""⟩, buffer := [] }
  else if char = '"' ∧ st.escaped = false then
    .ok { st with inQuotes := !st.inQuotes, buffer := st.buffer ++ [char] }
  else if char = '\\' ∧ st.inQuotes = true ∧ st.escaped = false then
    .ok { st with escaped := true, buffer := st.buffer ++ [char] }
  else if (char = '{' ∨ char = '[') ∧ st.inQuotes = false then
    .ok { st with bracketCount := st.bracketCount + 1, buffer := st.buffer ++ [char] }
  else if (char = '}' ∨ char = ']') ∧ st.inQuotes = false then
    if st.bracketCount - 1 < 0 then fail "unmatched closing bracket/brace"
    else .ok { st with bracketCount := st.bracketCount - 1, buffer := st.buffer ++ [char] }
  else if isSpace char ∧ st.inQuotes = false ∧ st.bracketCount = 0 then
    match st.currentMarker with
    | some m => (processValue st.buffer).map fun value =>
      { st with
        result := st.result ++ [{ m with value := value }]
        currentMarker := none
        buffer := [] }
    | none => .ok st
  else
    .ok { st with
      escaped := if st.escaped ∧ st.inQuotes then false else st.escaped
      buffer := st.buffer ++ [char] }

/-! ### The cases of `step`, one lemma each -/

section StepCases

variable {st : ParseState} {c : Char}

theorem step_equals (hm : st.currentMarker = none) (hq : st.inQuotes = false)
    (hd : st.bracketCount = 0) :
    step st '=' =
      if trimSpace st.buffer = [] then fail "empty marker key"
      else match markerTypeFromString (String.mk (trimSpace st.buffer)) with
        | .error err =>
          fail ("invalid marker key \x27" ++ String.mk (trimSpace st.buffer) ++ "\x27: " ++ err)
        | .ok markerType =>
          .ok { st with
            currentMarker := some ⟨markerType, String.mk (trimSpace st.buffer), ""⟩
            buffer := [] } := by
  simp [step, hm, hq, hd]

theorem step_quote (he : st.escaped = false) :
    step st '"' = .ok { st with inQuotes := !st.inQuotes, buffer := st.buffer ++ ['"'] } := by
  simp [step, he]

theorem step_backslash (hq : st.inQuotes = true) (he : st.escaped = false) :
    step st '\\' = .ok { st with escaped := true, buffer := st.buffer ++ ['\\'] } := by
  simp [step, hq, he]

/-- The rune after a backslash inside quotes is written as it is. -/
theorem step_escaped (hq : st.inQuotes = true) (he : st.escaped = true) :
    step st c = .ok { st with escaped := false, buffer := st.buffer ++ [c] } := by
  simp [step, hq, he]

/-- A rune other than a quote or a backslash inside quotes is written as it is. -/
theorem step_inQuotes (hq : st.inQuotes = true) (he : st.escaped = false) (h1 : c ≠ '"')
    (h2 : c ≠ '\\') : step st c = .ok { st with buffer := st.buffer ++ [c] } := by
  simp [step, hq, he, h1, h2]

theorem step_open (hq : st.inQuotes = false) (hc : c = '{' ∨ c = '[') :
    step st c = .ok { st with bracketCount := st.bracketCount + 1, buffer := st.buffer ++ [c] } := by
  rcases hc with rfl | rfl <;> simp [step, hq]

theorem step_close (hq : st.inQuotes = false) (hc : c = '}' ∨ c = ']') (hd : 0 < st.bracketCount) :
    step st c = .ok { st with bracketCount := st.bracketCount - 1, buffer := st.buffer ++ [c] } := by
  have : ¬ st.bracketCount - 1 < 0 := by omega
  rcases hc with rfl | rfl <;> simp [step, hq, this]

theorem step_space (hq : st.inQuotes = false) (hd : st.bracketCount = 0) (hc : isSpace c = true) :
    step st c = match st.currentMarker with
      | some m => (processValue st.buffer).map fun value =>
        { st with
          result := st.result ++ [{ m with value := value }]
          currentMarker := none
          buffer := [] }
      | none => .ok st := by
  have h1 : c ≠ '=' := by rintro rfl; simp [isSpace] at hc
  have h2 : c ≠ '"' := by rintro rfl; simp [isSpace] at hc
  have h3 : c ≠ '\\' := by rintro rfl; simp [isSpace] at hc
  have h4 : ¬ (c = '{' ∨ c = '[') := by rintro (rfl | rfl) <;> simp [isSpace] at hc
  have h5 : ¬ (c = '}' ∨ c = ']') := by rintro (rfl | rfl) <;> simp [isSpace] at hc
  simp only [step, h1, h2, h3, h4, h5, hq, hd, hc, false_and, and_self, if_false, if_true]

/-- Outside quotes and brackets' reach, with the escape flag down, a rune that is no case of its
own is written as it is. -/
theorem step_plain (he : st.escaped = false) (h1 : c = '=' → st.currentMarker ≠ none)
    (h2 : c ≠ '"') (h3 : c ≠ '\\') (h4 : c ≠ '{' ∧ c ≠ '[' ∧ c ≠ '}' ∧ c ≠ ']')
    (h6 : isSpace c = true → st.inQuotes = true ∨ st.bracketCount ≠ 0) :
    step st c = .ok { st with buffer := st.buffer ++ [c] } := by
  have h1' : ¬ (c = '=' ∧ st.currentMarker = none ∧ st.inQuotes = false ∧
      st.bracketCount = 0) := fun h => h1 h.1 h.2.1
  have h6' : ¬ (isSpace c = true ∧ st.inQuotes = false ∧ st.bracketCount = 0) := by
    rintro ⟨hs, hq, hd⟩; rcases h6 hs with h | h <;> simp_all
  simp [step, h1', h2, h3, h4, h6', he]

end StepCases

/-- The `for` loop over the runes. -/
def run : ParseState → List Char → Except GoError ParseState
  | st, [] => .ok st
  | st, c :: cs => do run (← step st c) cs

/-- What follows the loop: flush the marker being read, then reject an open quote or bracket. -/
def finish (st : ParseState) : Except GoError (List Marker) := do
  let result ← match st.currentMarker with
    | some m => (processValue st.buffer).map fun value => st.result ++ [{ m with value := value }]
    | none => pure st.result
  if st.inQuotes then fail "unclosed quote"
  else if st.bracketCount > 0 then fail "unclosed bracket/brace"
  else pure result

/-- `parseMarkers`. -/
def parseMarkers (markers : String) : Except GoError (List Marker) := do
  finish (← run .init markers.toList)

theorem run_nil (st : ParseState) : run st [] = .ok st := rfl

theorem run_cons (st : ParseState) (c : Char) (cs : List Char) :
    run st (c :: cs) = (step st c).bind fun st' => run st' cs := rfl

theorem run_cons_of_step {st st' : ParseState} {c : Char} {cs : List Char}
    (h : step st c = .ok st') : run st (c :: cs) = run st' cs := by
  rw [run_cons, h]; rfl

theorem run_append (st : ParseState) (xs ys : List Char) :
    run st (xs ++ ys) = (run st xs).bind fun st' => run st' ys := by
  induction xs generalizing st with
  | nil => rfl
  | cons c xs ih =>
    rw [List.cons_append, run_cons, run_cons]
    cases step st c <;> simp [Except.bind, ih]

theorem run_append_of_run {st st' : ParseState} {xs ys : List Char} (h : run st xs = .ok st') :
    run st (xs ++ ys) = run st' ys := by
  rw [run_append, h]; rfl

/-- What every successful step keeps, every successful run keeps. -/
theorem run_inv (P : ParseState → Prop)
    (hP : ∀ {st st' : ParseState} {c : Char}, step st c = .ok st' → P st → P st')
    {st st' : ParseState} {cs : List Char} (h : run st cs = .ok st') (hi : P st) : P st' := by
  induction cs generalizing st with
  | nil => cases h; exact hi
  | cons c cs ih =>
    rw [run_cons] at h
    cases hs : step st c with
    | error e => simp [hs, Except.bind] at h
    | ok st₁ => exact ih (by simpa [hs, Except.bind] using h) (hP hs hi)

/-- A rune with no case of its own in the `switch`. -/
def IsKeyChar (c : Char) : Bool :=
  c ≠ '=' && c ≠ '"' && c ≠ '\\' && c ≠ '{' && c ≠ '[' && c ≠ '}' && c ≠ ']' && !isSpace c

theorem run_keyChars {w : List Char} (hw : ∀ c ∈ w, IsKeyChar c = true) (st : ParseState)
    (he : st.escaped = false) : run st w = .ok { st with buffer := st.buffer ++ w } := by
  induction w generalizing st with
  | nil => simp [run_nil]
  | cons c w ih =>
    have hc := hw c (List.mem_cons_self c w)
    simp only [IsKeyChar, Bool.and_eq_true, decide_eq_true_eq, Bool.not_eq_true'] at hc
    obtain ⟨⟨⟨⟨⟨⟨⟨h1, h2⟩, h3⟩, h4⟩, h5⟩, h6⟩, h7⟩, h8⟩ := hc
    refine (run_cons_of_step (step_plain he (fun h => absurd h h1) h2 h3 ⟨h4, h5, h6, h7⟩
      (fun h => by simp [h8] at h))).trans <|
      (ih (fun x hx => hw x (List.mem_cons_of_mem c hx)) _ ?_).trans ?_
    all_goals simp [he]

end Kro.SimpleSchema
