import Kro.SimpleSchema.Markers

/-!
# Where `parseMarkers` panics, and what it drops

The flags `inQuotes` and `escaped` of a pass are a function of its buffer: replaying the quote
and escape cases of the `switch` over the buffer from its last reset gives them back
(`QuoteInv`).  Resets happen only outside quotes, where the escape flag is down.  So a buffer
holding a lone `"` always means an open quote, and the whitespace case, which needs a closed
one, never hands such a buffer to `processValue`.

* **`run_no_panic`** — the loop itself never panics.
* **`parseMarkers_panic_iff`** — `parseMarkers` panics exactly when the loop ends with a marker
  being read, a lone `"` in the buffer and the quote open: on inputs the `unclosed quote` check
  after the flush would have rejected, had it come first.

The bracket depth never goes below zero, so a pass that `finish` accepts ends outside quotes
and brackets with the escape flag down.  A space there closes the last marker; the runes after
it fill the buffer, and the flush finds no marker to put them in.

* **`parseMarkers_append_word`** — a bare word after the last marker is dropped without an
  error.
-/

namespace Kro.SimpleSchema

open Kro.Go

/-- The quote and escape flags after a rune that the `switch` appends to the buffer. -/
def quoteStep (qe : Bool × Bool) (c : Char) : Bool × Bool :=
  if c = '"' ∧ qe.2 = false then (!qe.1, qe.2)
  else if c = '\\' ∧ qe.1 = true ∧ qe.2 = false then (qe.1, true)
  else if (c = '{' ∨ c = '[' ∨ c = '}' ∨ c = ']') ∧ qe.1 = false then qe
  else (qe.1, if qe.2 ∧ qe.1 then false else qe.2)

/-- The flags a buffer leaves behind, read from a reset. -/
def quoteScan (buf : List Char) : Bool × Bool := buf.foldl quoteStep (false, false)

theorem quoteScan_append (buf : List Char) (c : Char) :
    quoteScan (buf ++ [c]) = quoteStep (quoteScan buf) c := by
  simp [quoteScan]

/-- The escape flag is raised only inside quotes. -/
theorem quoteScan_escaped (buf : List Char) (h : (quoteScan buf).2 = true) :
    (quoteScan buf).1 = true := by
  induction buf using List.reverseRecOn with
  | nil => simp [quoteScan] at h
  | append_singleton buf c ih =>
    rw [quoteScan_append] at h ⊢
    revert h ih
    unfold quoteStep
    split_ifs <;> simp_all

/-- The flags of a state are those its buffer leaves behind. -/
def QuoteInv (st : ParseState) : Prop := (st.inQuotes, st.escaped) = quoteScan st.buffer

theorem QuoteInv.init : QuoteInv .init := rfl

theorem QuoteInv.escaped {st : ParseState} (hi : QuoteInv st) (h : st.escaped = true) :
    st.inQuotes = true := by
  have := quoteScan_escaped st.buffer
  rw [← hi] at this
  exact this h

/-- Appending a rune moves the flags as `quoteStep` does. -/
theorem QuoteInv.append {st : ParseState} (hi : QuoteInv st) (c : Char) (q e : Bool)
    (hqe : quoteStep (st.inQuotes, st.escaped) c = (q, e)) :
    QuoteInv { st with inQuotes := q, escaped := e, buffer := st.buffer ++ [c] } := by
  unfold QuoteInv at hi ⊢
  rw [quoteScan_append, ← hi, hqe]

theorem QuoteInv.reset {st : ParseState} (hi : QuoteInv st) (hq : st.inQuotes = false) :
    quoteScan [] = (st.inQuotes, st.escaped) := by
  have : st.escaped = false := by
    cases he : st.escaped
    · rfl
    · simpa [hq] using hi.escaped he
  simp [quoteScan, hq, this]

/-- What one rune can do: name a marker or flush one, outside quotes, to an empty buffer (or
change nothing); or append itself to the buffer, the flags moved as `quoteStep` says and the
bracket depth kept from going below zero.  It fails with an error of its own, or with the error
of `processValue` at a flush. -/
theorem step_cases (st : ParseState) (c : Char) :
    match step st c with
    | .ok st' =>
      (st.inQuotes = false ∧ st'.inQuotes = false ∧ st'.escaped = st.escaped ∧
        st'.bracketCount = st.bracketCount ∧ (st'.buffer = [] ∨ st' = st)) ∨
      ((st'.inQuotes, st'.escaped) = quoteStep (st.inQuotes, st.escaped) c ∧
        st'.buffer = st.buffer ++ [c] ∧ (st.bracketCount ≤ st'.bracketCount ∨ 0 ≤ st'.bracketCount))
    | .error e => (∃ msg, e = .error msg) ∨
      (st.inQuotes = false ∧ ∃ m, st.currentMarker = some m ∧ processValue st.buffer = .error e) := by
  unfold step
  split_ifs with h1 h2 h3 h4 h5 h5' h6
  · dsimp only
    split_ifs
    · exact .inl ⟨_, rfl⟩
    · cases markerTypeFromString (String.mk (trimSpace st.buffer))
      · exact .inl ⟨_, rfl⟩
      · exact .inl ⟨h1.2.2.1, h1.2.2.1, rfl, rfl, .inl rfl⟩
  · exact .inr ⟨by simp [quoteStep, h2], rfl, .inl (Int.le_refl _)⟩
  · exact .inr ⟨by simp [quoteStep, h3], rfl, .inl (Int.le_refl _)⟩
  · exact .inr ⟨by rcases h4.1 with rfl | rfl <;> simp [quoteStep, h4.2], rfl, .inl (by dsimp only; omega)⟩
  · exact .inl ⟨_, rfl⟩
  · refine .inr ⟨by rcases h5.1 with rfl | rfl <;> simp [quoteStep, h5.2], rfl, .inr ?_⟩
    dsimp only; omega
  · cases hm : st.currentMarker with
    | some m =>
      dsimp only
      cases hp : processValue st.buffer with
      | ok v => exact .inl ⟨h6.2.1, h6.2.1, rfl, rfl, .inl rfl⟩
      | error e => exact .inr ⟨h6.2.1, _, rfl, rfl⟩
    | none => exact .inl ⟨h6.2.1, h6.2.1, rfl, rfl, .inr rfl⟩
  all_goals
    refine .inr ⟨?_, rfl, .inl (Int.le_refl _)⟩
    unfold quoteStep
    split_ifs <;> simp_all

/-- One step keeps the flags in line with the buffer. -/
theorem step_quoteInv {st st' : ParseState} {c : Char} (h : step st c = .ok st')
    (hi : QuoteInv st) : QuoteInv st' := by
  have hc := step_cases st c
  rw [h] at hc
  rcases hc with ⟨hq, hq', he', -, hb | rfl⟩ | ⟨hqe, hb, -⟩
  · unfold QuoteInv
    rw [hb, hi.reset hq, hq', he', hq]
  · exact hi
  · unfold QuoteInv at hi ⊢
    rw [hqe, hb, quoteScan_append, ← hi]

theorem run_quoteInv {st st' : ParseState} {cs : List Char} (h : run st cs = .ok st')
    (hi : QuoteInv st) : QuoteInv st' :=
  run_inv QuoteInv step_quoteInv h hi

/-! ### Panics -/

/-- `processValue` returns no error of its own; it panics on the lone `"` only. -/
theorem processValue_error {v : List Char} {e : GoError} (h : processValue v = .error e) :
    v = ['"'] ∧ e = .panic "runtime error: slice bounds out of range [1:0]" := by
  unfold processValue at h
  split_ifs at h with h1 h2
  cases h
  match v, h1, h2 with
  | [c], h1, _ => simp_all

theorem quoteScan_lone_quote : quoteScan ['"'] = (true, false) := rfl

theorem step_no_panic {st : ParseState} {c : Char} (hi : QuoteInv st) (msg : String) :
    step st c ≠ .error (.panic msg) := by
  intro h
  have hc := step_cases st c
  rw [h] at hc
  rcases hc with ⟨_, he⟩ | ⟨hq, -, -, hp⟩
  · cases he
  · obtain ⟨hb, -⟩ := processValue_error hp
    have := congrArg Prod.fst hi
    simp_all [quoteScan_lone_quote]

/-- The loop of `parseMarkers` never panics. -/
theorem run_no_panic {st : ParseState} (cs : List Char) (hi : QuoteInv st) (msg : String) :
    run st cs ≠ .error (.panic msg) := by
  induction cs generalizing st with
  | nil => simp [run_nil]
  | cons c cs ih =>
    rw [run_cons]
    cases hs : step st c with
    | error e =>
      rintro ⟨⟩
      exact step_no_panic hi msg hs
    | ok st₁ => exact ih (step_quoteInv hs hi)

/-- **`parseMarkers` panics exactly when its pass ends reading a marker whose buffer is a lone
`"`, inside the quote that `"` opened**: only on inputs that the `unclosed quote` check, which
follows the flush, would reject. -/
theorem parseMarkers_panic_iff (s : String) :
    (∃ msg, parseMarkers s = .error (.panic msg)) ↔
      ∃ st, run .init s.toList = .ok st ∧ st.currentMarker.isSome ∧ st.buffer = ['"'] ∧
        st.inQuotes = true := by
  unfold parseMarkers
  cases hr : run .init s.toList with
  | error e =>
    simp only [bind, Except.bind]
    constructor
    · rintro ⟨msg, h⟩
      cases h
      exact absurd hr (run_no_panic _ QuoteInv.init msg)
    · rintro ⟨st, h, -⟩
      cases h
  | ok st =>
    have hi := run_quoteInv hr QuoteInv.init
    simp only [bind, Except.bind, Except.ok.injEq, exists_eq_left']
    unfold finish
    constructor
    · rintro ⟨msg, h⟩
      cases hm : st.currentMarker with
      | none =>
        simp only [hm, pure, Except.pure, bind, Except.bind] at h
        split_ifs at h <;> simp [fail] at h
      | some m =>
        cases hp : processValue st.buffer with
        | ok v =>
          simp only [hm, hp, Except.map, bind, Except.bind] at h
          split_ifs at h <;> simp [fail, pure, Except.pure] at h
        | error e =>
          obtain ⟨hb, -⟩ := processValue_error hp
          have := congrArg Prod.fst hi
          simp_all [quoteScan_lone_quote]
    · rintro ⟨hm, hb, -⟩
      obtain ⟨m, hm⟩ := Option.isSome_iff_exists.mp hm
      exact ⟨"runtime error: slice bounds out of range [1:0]",
        by simp [hm, hb, processValue, Except.map, bind, Except.bind]⟩

/-- The input `description="`: the pass ends inside the quote with the buffer `"`, and the flush
slices it before the quote is checked. -/
theorem parseMarkers_lone_quote_panics :
    parseMarkers "description=\"" =
      .error (.panic "runtime error: slice bounds out of range [1:0]") := by
  decide

/-! ### Text after the last marker -/

/-- The closing case rejects the rune that would take the bracket depth below zero. -/
theorem step_bracketCount {st st' : ParseState} {c : Char} (h : step st c = .ok st')
    (hd : 0 ≤ st.bracketCount) : 0 ≤ st'.bracketCount := by
  have hc := step_cases st c
  rw [h] at hc
  rcases hc with ⟨-, -, -, hb, -⟩ | ⟨-, -, hb⟩ <;> omega

/-- `finish` accepts only a pass that ended outside quotes and brackets. -/
theorem finish_ok {st : ParseState} {ms : List Marker} (h : finish st = .ok ms) :
    st.inQuotes = false ∧ ¬ 0 < st.bracketCount := by
  unfold finish at h
  cases hm : st.currentMarker <;> cases hp : processValue st.buffer <;>
    simp [hm, hp, Except.map, pure, Except.pure, bind, Except.bind] at h <;>
    split_ifs at h <;> simp_all [fail]

/-- **A bare word after the last marker is dropped**: if `s` parses to `ms`, so does `s`
followed by a space and any word of runes that have no case of their own in the `switch`. -/
theorem parseMarkers_append_word {s : String} {ms : List Marker} {w : List Char}
    (h : parseMarkers s = .ok ms) (hw : ∀ c ∈ w, IsKeyChar c = true) :
    parseMarkers (s ++ String.mk (' ' :: w)) = .ok ms := by
  obtain ⟨st, hr, hf⟩ := except_bind_eq_ok.mp h
  obtain ⟨hq, hd⟩ := finish_ok hf
  have hd : st.bracketCount = 0 := by
    have := run_inv (fun st => 0 ≤ st.bracketCount) step_bracketCount hr (by decide)
    omega
  have he : st.escaped = false := by
    cases he : st.escaped
    · rfl
    · simpa [hq] using (run_quoteInv hr QuoteInv.init).escaped he
  show (run .init (s.toList ++ ' ' :: w)).bind finish = _
  rw [run_append_of_run hr, run_cons, step_space hq hd (by decide)]
  cases hm : st.currentMarker with
  | none =>
    simp only [hm, Except.bind, run_keyChars hw st he]
    simpa [finish, hm] using hf
  | some m =>
    obtain ⟨v, hv⟩ : ∃ v, processValue st.buffer = .ok v := by
      cases hp : processValue st.buffer
      · simp [finish, hm, hp, Except.map, bind, Except.bind] at hf
      · exact ⟨_, rfl⟩
    simp only [hm, hv, Except.map, Except.bind]
    rw [run_keyChars hw ⟨_, none, _, _, [], _⟩ he]
    simpa [finish, hm, hv, hq, hd, Except.map, pure, Except.pure] using hf

/-- `required=true`, then ` immutable`. -/
theorem parseMarkers_append_word_sample :
    parseMarkers "required=true" = .ok [⟨.required, "required", "true"⟩] ∧
      (∀ c ∈ "immutable".toList, IsKeyChar c = true) ∧
      parseMarkers ("required=true" ++ String.mk (' ' :: "immutable".toList)) =
        .ok [⟨.required, "required", "true"⟩] :=
  have h : parseMarkers "required=true" = .ok [⟨.required, "required", "true"⟩] := by decide
  have hw : ∀ c ∈ "immutable".toList, IsKeyChar c = true := by decide
  ⟨h, hw, parseMarkers_append_word h hw⟩

/-- The flag `immutable` after `required=true` is dropped, and so is the value of
`description= "x"`, read after the space has closed the marker with an empty value. -/
theorem parseMarkers_drops_text :
    parseMarkers "required=true immutable" = .ok [⟨.required, "required", "true"⟩] ∧
      parseMarkers "description= \"x\"" = .ok [⟨.description, "description", ""⟩] := by
  decide

end Kro.SimpleSchema
