import Kro.SimpleSchema.Markers
import Kro.Json.Text

/-!
# `parseMarkers` reads back what a marker list renders to

Render a list of markers as `k₁=r₁ k₂=r₂ …`, where each `rᵢ` is the value double-quoted with
every `\` and `"` escaped, or — when the value is the text of a JSON array or object — the
value itself.  `parseMarkers` gives back exactly the markers, whatever the values hold:
spaces, `=`, brackets, quotes, backslashes, JSON strings with their own escapes.

The proof follows the pass over the rendered text.

* **`run_strText`** — inside quotes the pass copies an escaped string body and comes out of it
  with the escape flag down; the parser's backslash pairing is the body's.
* **`run_balanced`** — at positive bracket depth it copies a balanced text; so a JSON array or
  object, entered at depth zero, is copied whole and left at depth zero (`run_compound`).
* **`run_key`** — a marker name and `=` open the marker.
* **`unescapeString_escape`** — `unescapeString` undoes the escaping.
* **`parseMarkers_renderMarkers`** — the round trip.
-/

namespace Kro.SimpleSchema

open Kro.Go Kro.Json

/-- One rune of a value in its quoted form. -/
def escapeChar (c : Char) : List Char := if c = '\\' ∨ c = '"' then ['\\', c] else [c]

/-- The double-quoted form of a value. -/
def quoteValue (v : List Char) : List Char := '"' :: v.flatMap escapeChar ++ ['"']

/-- `r` renders the value `v`: its quoted form, or `v` itself when `v` is the text of a JSON
array or object. -/
def Renders (v : String) (r : List Char) : Prop :=
  r = quoteValue v.toList ∨ (r = v.toList ∧ JsonCompound v.toList)

/-- `k₁=r₁ k₂=r₂ …`, one space between items. -/
def renderMarkers : List (MarkerType × List Char) → List Char
  | [] => []
  | [(k, r)] => k.name.toList ++ '=' :: r
  | (k, r) :: rest => k.name.toList ++ '=' :: r ++ ' ' :: renderMarkers rest

/-! ### Escaping -/

theorem unescapeString_escape (v : List Char) :
    unescapeString (v.flatMap escapeChar) = v := by
  induction v with
  | nil => rfl
  | cons c v ih =>
    rw [List.flatMap_cons]
    by_cases hb : c = '\\'
    · subst hb; simpa [escapeChar, unescapeString, unescapeLoop] using ih
    · by_cases hq : c = '"'
      · subst hq; simpa [escapeChar, unescapeString, unescapeLoop] using ih
      · simpa [escapeChar, unescapeString, unescapeLoop, hb, hq] using ih

theorem strText_escape (v : List Char) : StrText (v.flatMap escapeChar) := by
  induction v with
  | nil => exact .nil
  | cons c v ih =>
    rw [List.flatMap_cons]
    by_cases h : c = '\\' ∨ c = '"'
    · simpa [escapeChar, h] using StrText.escape c ih
    · simp only [not_or] at h
      simpa [escapeChar, h] using StrText.plain c h.2 h.1 ih

/-! ### The pass over a value -/

theorem run_strText {t : List Char} (ht : StrText t) :
    ∀ st : ParseState, st.inQuotes = true → st.escaped = false →
      run st t = .ok { st with buffer := st.buffer ++ t } := by
  induction ht with
  | nil => intro st _ _; simp [run_nil]
  | plain c h1 h2 _ ih =>
    intro st hq he
    refine (run_cons_of_step (step_inQuotes hq he h1 h2)).trans <| (ih _ ?_ ?_).trans ?_
    all_goals simp [hq, he]
  | escape c _ ih =>
    intro st hq he
    refine (run_cons_of_step (step_backslash hq he)).trans <|
      (run_cons_of_step (step_escaped ?_ rfl)).trans <| (ih _ ?_ ?_).trans ?_
    all_goals simp [hq, he]

theorem run_balanced {t : List Char} (ht : Balanced t) :
    ∀ st : ParseState, st.currentMarker ≠ none → st.inQuotes = false → st.escaped = false →
      0 < st.bracketCount → run st t = .ok { st with buffer := st.buffer ++ t } := by
  induction ht with
  | nil => intro st _ _ _ _; simp [run_nil]
  | plain c hc _ ih =>
    intro st hm hq he hd
    obtain ⟨h2, h3, h4, h5, h6, h7⟩ := hc
    refine (run_cons_of_step (step_plain he (fun _ => hm) h2 h3 ⟨h4, h5, h6, h7⟩
      (fun _ => .inr (by omega)))).trans <| (ih _ ?_ ?_ ?_ ?_).trans ?_
    all_goals dsimp only
    all_goals first | assumption | omega | simp [hq]
  | string hb _ ih =>
    intro st hm hq he hd
    rw [List.cons_append]
    refine (run_cons_of_step (step_quote he)).trans <|
      (run_append_of_run (run_strText hb _ ?_ ?_)).trans <|
      (run_cons_of_step (step_quote ?_)).trans <| (ih _ ?_ ?_ ?_ ?_).trans ?_
    all_goals dsimp only
    all_goals first | assumption | omega | simp [hq]
  | group o c ho hc _ _ ihi iht =>
    intro st hm hq he hd
    rw [List.cons_append]
    refine (run_cons_of_step (step_open hq ho.symm)).trans <|
      (run_append_of_run (ihi _ ?_ ?_ ?_ ?_)).trans <|
      (run_cons_of_step (step_close ?_ hc.symm ?_)).trans <| (iht _ ?_ ?_ ?_ ?_).trans ?_
    all_goals dsimp only
    all_goals first | assumption | omega | simp [hq]

/-- A JSON array or object, read with a marker open outside quotes and brackets, is copied
whole and leaves the pass where it found it. -/
theorem run_compound {v : List Char} (hv : JsonCompound v) (st : ParseState)
    (hm : st.currentMarker ≠ none) (hq : st.inQuotes = false) (he : st.escaped = false)
    (hd : st.bracketCount = 0) : run st v = .ok { st with buffer := st.buffer ++ v } := by
  obtain ⟨o, c, inner, rfl, ho, hc, hi⟩ := hv.balanced
  rw [List.cons_append]
  refine (run_cons_of_step (step_open hq ho.symm)).trans <|
    (run_append_of_run (run_balanced hi _ ?_ ?_ ?_ ?_)).trans <|
    (run_cons_of_step (step_close ?_ hc.symm ?_)).trans ?_
  all_goals simp_all [run_nil]

theorem run_quoteValue (v : List Char) (st : ParseState) (hq : st.inQuotes = false)
    (he : st.escaped = false) :
    run st (quoteValue v) = .ok { st with buffer := st.buffer ++ quoteValue v } := by
  unfold quoteValue
  rw [List.cons_append]
  refine (run_cons_of_step (step_quote he)).trans <|
    (run_append_of_run (run_strText (strText_escape v) _ ?_ ?_)).trans <|
    (run_cons_of_step (step_quote ?_)).trans ?_
  all_goals simp_all [run_nil]

/-! ### Keys, separators and the flush -/

theorem name_isKeyChar (k : MarkerType) : ∀ c ∈ k.name.toList, IsKeyChar c = true := by
  cases k <;> decide

theorem trimSpace_name (k : MarkerType) : trimSpace k.name.toList = k.name.toList := by
  cases k <;> decide

/-- Between markers, a marker name and `=` open the marker. -/
theorem run_key (k : MarkerType) (r : List Char) (R : List Marker) :
    run ⟨R, none, false, 0, [], false⟩ (k.name.toList ++ '=' :: r) =
      run ⟨R, some ⟨k, k.name, ""⟩, false, 0, [], false⟩ r := by
  rw [run_append_of_run (run_keyChars (name_isKeyChar k) _ rfl)]
  refine run_cons_of_step ((step_equals rfl rfl rfl).trans ?_)
  have hne : k.name.toList ≠ [] := by cases k <;> decide
  simp only [List.nil_append]
  rw [trimSpace_name, if_neg hne, show String.mk k.name.toList = k.name from rfl,
    markerTypeFromString_name]

theorem getLast?_cons_append_singleton (a b : Char) (xs : List Char) :
    (a :: (xs ++ [b])).getLast? = some b := by
  rw [← List.cons_append, List.getLast?_append]; simp

theorem processValue_quoteValue (v : String) :
    processValue (quoteValue v.toList) = .ok v := by
  rw [processValue, if_pos ⟨rfl, getLast?_cons_append_singleton _ _ _⟩,
    if_neg (by simp [quoteValue])]
  simp only [quoteValue, List.cons_append, List.drop_succ_cons, List.drop_zero,
    List.dropLast_concat, unescapeString_escape]
  rfl

theorem processValue_compound {v : String} (hv : JsonCompound v.toList) :
    processValue v.toList = .ok v := by
  obtain ⟨o, c, inner, hvo, ho, hc, -⟩ := hv.balanced
  have hh : v.toList.head? = some o := by rw [hvo]; rfl
  have hl : v.toList.getLast? = some c := by rw [hvo]; exact getLast?_cons_append_singleton _ _ _
  have hno : o ≠ '"' := by rcases ho with rfl | rfl <;> decide
  rw [processValue, if_neg (by rw [hh]; simp [hno]), trimSpace_eq_self _
    (by rw [hh]; rcases ho with rfl | rfl <;> decide)
    (by rw [hl]; rcases hc with rfl | rfl <;> decide)]
  rfl

theorem Renders.run {v : String} {r : List Char} (h : Renders v r) (R : List Marker)
    (m : Marker) :
    run ⟨R, some m, false, 0, [], false⟩ r = .ok ⟨R, some m, false, 0, r, false⟩ := by
  rcases h with rfl | ⟨rfl, hv⟩
  · simpa using run_quoteValue v.toList ⟨R, some m, false, 0, [], false⟩ rfl rfl
  · simpa using run_compound hv ⟨R, some m, false, 0, [], false⟩ (by simp) rfl rfl rfl

theorem Renders.processValue {v : String} {r : List Char} (h : Renders v r) :
    processValue r = .ok v := by
  rcases h with rfl | ⟨rfl, hv⟩
  · exact processValue_quoteValue v
  · exact processValue_compound hv

/-- The space after a value closes its marker. -/
theorem step_separator {v : String} {r : List Char} (h : Renders v r) (R : List Marker)
    (m : Marker) :
    step ⟨R, some m, false, 0, r, false⟩ ' ' =
      .ok ⟨R ++ [{ m with value := v }], none, false, 0, [], false⟩ := by
  rw [step_space rfl rfl (by decide)]
  simp [h.processValue, Except.map]

theorem finish_reading {v : String} {r : List Char} (h : Renders v r) (R : List Marker)
    (m : Marker) :
    finish ⟨R, some m, false, 0, r, false⟩ = .ok (R ++ [{ m with value := v }]) := by
  simp [finish, h.processValue, Except.map, bind, Except.bind, pure, Except.pure]

/-! ### The round trip -/

theorem run_renderMarkers (items : List (MarkerType × String × List Char))
    (h : ∀ x ∈ items, Renders x.2.1 x.2.2) (R : List Marker) :
    (run ⟨R, none, false, 0, [], false⟩
        (renderMarkers (items.map fun x => (x.1, x.2.2)))).bind finish =
      .ok (R ++ items.map fun x => ⟨x.1, x.1.name, x.2.1⟩) := by
  induction items generalizing R with
  | nil => simp [renderMarkers, run_nil, Except.bind, finish, bind, pure, Except.pure]
  | cons x rest ih =>
    obtain ⟨k, v, r⟩ := x
    have hx : Renders v r := h _ (List.mem_cons_self _ _)
    cases rest with
    | nil =>
      simp only [List.map_cons, List.map_nil, renderMarkers]
      rw [run_key, hx.run, Except.bind, finish_reading hx]
    | cons y rest =>
      simp only [List.map_cons, renderMarkers]
      rw [List.append_assoc, List.cons_append, run_key, run_append_of_run (hx.run R _),
        run_cons_of_step (step_separator hx R _)]
      have := ih (fun x hx => h x (List.mem_cons_of_mem _ hx)) (R ++ [⟨k, k.name, v⟩])
      simp only [List.map_cons, List.append_assoc, List.singleton_append] at this
      exact this

/-- **`parseMarkers` inverts the rendering of marker lists**: for every list of marker types
and values, each value rendered double-quoted with `\` and `"` escaped, or verbatim when it is
the text of a JSON array or object, parsing `k₁=r₁ k₂=r₂ …` returns exactly the markers
`(kᵢ, kᵢ, vᵢ)` in order. -/
theorem parseMarkers_renderMarkers (items : List (MarkerType × String × List Char))
    (h : ∀ x ∈ items, Renders x.2.1 x.2.2) :
    parseMarkers (String.mk (renderMarkers (items.map fun x => (x.1, x.2.2)))) =
      .ok (items.map fun x => ⟨x.1, x.1.name, x.2.1⟩) := by
  simpa using run_renderMarkers items h []

/-- `["a b","\ud800"]`: a JSON array whose second item is the escape of a lone surrogate. -/
theorem sampleArray_compound : JsonCompound "[\"a b\",\"\\ud800\"]".toList := by
  have ws : IsWs [] := by simp [IsWs]
  have hsur : StrBody ('\\' :: 'u' :: "d800".toList ++ []) ['\uFFFD'] :=
    .loneSurrogate _ 0xD800 (by decide) (by decide) (by decide)
      (fun _ ⟨_, _, _, ht, _⟩ => List.cons_ne_nil _ _ ht.symm) .nil
  have helems := JsonText.elementsCons ws (.string (.of_unescaped (by decide) : StrBody "a b".toList
    "a b".toList)) ws (JsonText.elementsOne ws (.string hsur) ws)
  refine ⟨_, .inl ⟨?_, .inr helems⟩⟩
  decide

/-- A `required` marker, quoted, and a `default` marker whose value is a JSON array, verbatim. -/
def sampleItems : List (MarkerType × String × List Char) :=
  [(.required, "true", quoteValue "true".toList),
    (.default, "[\"a b\",\"\\ud800\"]", "[\"a b\",\"\\ud800\"]".toList)]

theorem parseMarkers_renderMarkers_sample :
    (∀ x ∈ sampleItems, Renders x.2.1 x.2.2) ∧
      parseMarkers (String.mk (renderMarkers (sampleItems.map fun x => (x.1, x.2.2)))) =
        .ok (sampleItems.map fun x => ⟨x.1, x.1.name, x.2.1⟩) :=
  have h : ∀ x ∈ sampleItems, Renders x.2.1 x.2.2 := by
    intro x hx
    simp only [sampleItems, List.mem_cons, List.mem_singleton, List.not_mem_nil, or_false] at hx
    rcases hx with rfl | rfl
    · exact .inl rfl
    · exact .inr ⟨rfl, sampleArray_compound⟩
  ⟨h, parseMarkers_renderMarkers _ h⟩

end Kro.SimpleSchema
