import Mathlib.Data.List.Basic

/-!
# JSON texts (RFC 8259)

The schema compiler writes marker values into the CRD as raw JSON (`default`, `enum`), and a
marker value may itself be a JSON array or object (`default=["a b", "c"]`).  This module is
the grammar those texts are read against: whitespace, literals, numbers, strings with what
they decode to, arrays and objects.

A string body is related to the characters it decodes to by `StrBody`.  The grammar admits
every `\u` escape, as RFC 8259 and `json.Valid` do.  What one decodes to is what
`encoding/json` makes of it: a code point outside the surrogates is itself, a high surrogate
followed by the escape of a low one is the pair's code point, and any other surrogate is
U+FFFD.

* **`StrBody.not_quote_head`** — a decodable body never starts with a bare `"`.
* **`decodesToString_quoted_iff`** — a text put between quotes as it is decodes to itself
  exactly when it needs no escape.
* **`Balanced`** — what a scanner that only tracks quotes, escapes and bracket depth sees of a
  text; `JsonText.balanced` shows every production of the grammar is balanced, and
  `JsonCompound.balanced` that an array or object is a bracketed balanced text.
-/

namespace Kro.Json

/-- JSON whitespace: space, tab, line feed, carriage return. -/
def IsWs (w : List Char) : Prop := ∀ c ∈ w, c = ' ' ∨ c = '\t' ∨ c = '\n' ∨ c = '\r'

/-- The value of one hex digit, if it is one. -/
def hexDigit (c : Char) : Option Nat :=
  if c.isDigit then some (c.toNat - 48)
  else if 97 ≤ c.toNat && c.toNat ≤ 102 then some (c.toNat - 87)
  else if 65 ≤ c.toNat && c.toNat ≤ 70 then some (c.toNat - 55)
  else none

/-- The value of up to four hex digits, if they are hex digits. -/
def hexValue : List Char → Option Nat
  | [] => some 0
  | c :: cs =>
    match hexDigit c, hexValue cs with
    | some d, some n => some (d * Nat.pow 16 cs.length + n)
    | _, _ => none

/-- The two-character escapes and the character each stands for. -/
def simpleEscapes : List (Char × Char) :=
  [('"', '"'), ('\\', '\\'), ('/', '/'), ('b', '\x08'), ('f', '\x0c'), ('n', '\n'), ('r', '\r'),
    ('t', '\t')]

/-- The text starts with the escape of a low surrogate, which pairs with a high one before it. -/
def LowSurrogateNext (t : List Char) : Prop :=
  ∃ h n rest, t = '\\' :: 'u' :: h ++ rest ∧ h.length = 4 ∧ hexValue h = some n ∧
    0xDC00 ≤ n ∧ n < 0xE000

/-- A string body (between the quotes) and the characters it decodes to. -/
inductive StrBody : List Char → List Char → Prop
  | nil : StrBody [] []
  | unescaped {t v : List Char} (c : Char) (hc : 0x20 ≤ c.toNat ∧ c ≠ '"' ∧ c ≠ '\\') :
      StrBody t v → StrBody (c :: t) (c :: v)
  | escape {t v : List Char} (e d : Char) (h : (e, d) ∈ simpleEscapes) :
      StrBody t v → StrBody ('\\' :: e :: t) (d :: v)
  | unicode {t v : List Char} (h : List Char) (n : Nat) (hl : h.length = 4)
      (hn : hexValue h = some n) (hs : n < 0xD800 ∨ 0xE000 ≤ n) :
      StrBody t v → StrBody ('\\' :: 'u' :: h ++ t) (Char.ofNat n :: v)
  | surrogates {t v : List Char} (h₁ h₂ : List Char) (n₁ n₂ : Nat) (hl₁ : h₁.length = 4)
      (hl₂ : h₂.length = 4) (hn₁ : hexValue h₁ = some n₁) (hn₂ : hexValue h₂ = some n₂)
      (hs₁ : 0xD800 ≤ n₁ ∧ n₁ < 0xDC00) (hs₂ : 0xDC00 ≤ n₂ ∧ n₂ < 0xE000) :
      StrBody t v →
        StrBody ('\\' :: 'u' :: h₁ ++ '\\' :: 'u' :: h₂ ++ t)
          (Char.ofNat (0x10000 + (n₁ - 0xD800) * 0x400 + (n₂ - 0xDC00)) :: v)
  | loneSurrogate {t v : List Char} (h : List Char) (n : Nat) (hl : h.length = 4)
      (hn : hexValue h = some n) (hs : 0xD800 ≤ n ∧ n < 0xE000)
      (hpair : n < 0xDC00 → ¬ LowSurrogateNext t) :
      StrBody t v → StrBody ('\\' :: 'u' :: h ++ t) ('\uFFFD' :: v)

/-- A JSON text whose value is the string `v`. -/
def DecodesToString (raw v : List Char) : Prop :=
  ∃ w₁ body w₂, IsWs w₁ ∧ IsWs w₂ ∧ raw = w₁ ++ '"' :: body ++ '"' :: w₂ ∧ StrBody body v

/-- One or more decimal digits. -/
def Digits (t : List Char) : Prop := t ≠ [] ∧ ∀ c ∈ t, c.isDigit

/-- `number = [ minus ] int [ frac ] [ exp ]`. -/
inductive JsonNumber : List Char → Prop
  | mk {m i f e : List Char} (hm : m = [] ∨ m = ['-'])
      (hi : i = ['0'] ∨ ∃ d ds, i = d :: ds ∧ d.isDigit ∧ d ≠ '0' ∧ ∀ c ∈ ds, c.isDigit)
      (hf : f = [] ∨ ∃ ds, f = '.' :: ds ∧ Digits ds)
      (he : e = [] ∨ ∃ x s ds, e = x :: s ++ ds ∧ (x = 'e' ∨ x = 'E') ∧
        (s = [] ∨ s = ['+'] ∨ s = ['-']) ∧ Digits ds) :
      JsonNumber (m ++ i ++ f ++ e)

/-- A number starts with a minus sign or a digit. -/
theorem JsonNumber.head {t : List Char} (h : JsonNumber t) :
    ∃ c cs, t = c :: cs ∧ (c = '-' ∨ c.isDigit) := by
  obtain ⟨hm, hi, -, -⟩ := h
  rcases hm with rfl | rfl
  · rcases hi with rfl | ⟨d, ds, rfl, hd, -, -⟩
    · exact ⟨'0', _, rfl, .inr rfl⟩
    · exact ⟨d, _, rfl, .inr hd⟩
  · exact ⟨'-', _, rfl, .inl rfl⟩

/-- The productions of the grammar that nest. -/
inductive JsonCat where
  | value
  | elements
  | members
  deriving DecidableEq

/-- The JSON grammar: a value without surrounding whitespace; the non-empty element list of an
array, `ws value ws (, ws value ws)*`; the non-empty member list of an object,
`ws string ws : ws value ws` separated by commas. -/
inductive JsonText : JsonCat → List Char → Prop
  | literal {t : List Char} (h : t = "true".toList ∨ t = "false".toList ∨ t = "null".toList) :
      JsonText .value t
  | number {t : List Char} : JsonNumber t → JsonText .value t
  | string {body v : List Char} : StrBody body v → JsonText .value ('"' :: body ++ ['"'])
  | arrayEmpty {w : List Char} : IsWs w → JsonText .value ('[' :: w ++ [']'])
  | array {inner : List Char} : JsonText .elements inner → JsonText .value ('[' :: inner ++ [']'])
  | objectEmpty {w : List Char} : IsWs w → JsonText .value ('{' :: w ++ ['}'])
  | object {inner : List Char} : JsonText .members inner → JsonText .value ('{' :: inner ++ ['}'])
  | elementsOne {w₁ t w₂ : List Char} : IsWs w₁ → JsonText .value t → IsWs w₂ →
      JsonText .elements (w₁ ++ t ++ w₂)
  | elementsCons {w₁ t w₂ rest : List Char} : IsWs w₁ → JsonText .value t → IsWs w₂ →
      JsonText .elements rest → JsonText .elements (w₁ ++ t ++ w₂ ++ ',' :: rest)
  | membersOne {w₁ body key w₂ w₃ t w₄ : List Char} : IsWs w₁ → StrBody body key → IsWs w₂ →
      IsWs w₃ → JsonText .value t → IsWs w₄ →
      JsonText .members (w₁ ++ '"' :: body ++ '"' :: w₂ ++ ':' :: w₃ ++ t ++ w₄)
  | membersCons {w₁ body key w₂ w₃ t w₄ rest : List Char} : IsWs w₁ → StrBody body key →
      IsWs w₂ → IsWs w₃ → JsonText .value t → IsWs w₄ → JsonText .members rest →
      JsonText .members (w₁ ++ '"' :: body ++ '"' :: w₂ ++ ':' :: w₃ ++ t ++ w₄ ++ ',' :: rest)

/-- The text of a JSON array or a JSON object, with no whitespace around it. -/
def JsonCompound (t : List Char) : Prop :=
  ∃ inner, (t = '[' :: inner ++ [']'] ∧ (IsWs inner ∨ JsonText .elements inner)) ∨
    (t = '{' :: inner ++ ['}'] ∧ (IsWs inner ∨ JsonText .members inner))

/-! ### Decoding never starts at a bare quote -/

theorem StrBody.not_quote_head {t v : List Char} (h : StrBody ('"' :: t) v) : False := by
  cases h with
  | unescaped c hc _ => exact hc.2.1 rfl

/-! ### Bodies written without escapes -/

/-- A character a string body may hold as it is. -/
def Unescaped (c : Char) : Prop := 0x20 ≤ c.toNat ∧ c ≠ '"' ∧ c ≠ '\\'

instance : DecidablePred Unescaped := fun _ => inferInstanceAs (Decidable (_ ∧ _))

/-- Every escape is longer than the character it stands for. -/
theorem StrBody.length_le {t v : List Char} (h : StrBody t v) : v.length ≤ t.length := by
  induction h with
  | nil => rfl
  | unescaped c _ _ ih => simpa using ih
  | escape e d _ _ ih => simp; omega
  | unicode h n hl _ _ _ ih => simp [hl]; omega
  | surrogates h₁ h₂ n₁ n₂ hl₁ hl₂ _ _ _ _ _ ih => simp [hl₁, hl₂]; omega
  | loneSurrogate h n hl _ _ _ _ ih => simp [hl]; omega

/-- A body no longer than what it decodes to has no escape: it is its value, character for
character. -/
theorem StrBody.eq_of_length_le {t v : List Char} (h : StrBody t v) (hl : t.length ≤ v.length) :
    t = v ∧ ∀ c ∈ t, Unescaped c := by
  induction h with
  | nil => simp
  | unescaped c hc _ ih =>
    obtain ⟨rfl, ht⟩ := ih (by simpa using hl)
    exact ⟨rfl, List.forall_mem_cons.mpr ⟨hc, ht⟩⟩
  | escape e d _ hb _ => have := hb.length_le; simp at hl; omega
  | unicode h n hl' _ _ hb _ => have := hb.length_le; simp [hl'] at hl; omega
  | surrogates h₁ h₂ n₁ n₂ hl₁ hl₂ _ _ _ _ hb _ =>
    have := hb.length_le; simp [hl₁, hl₂] at hl; omega
  | loneSurrogate h n hl' _ _ _ hb _ => have := hb.length_le; simp [hl'] at hl; omega

theorem StrBody.of_unescaped {v : List Char} (h : ∀ c ∈ v, Unescaped c) : StrBody v v := by
  induction v with
  | nil => exact .nil
  | cons c v ih => exact .unescaped c (h c (by simp)) (ih fun x hx => h x (by simp [hx]))

/-- **A value between two quotes is the JSON text of that value exactly when it holds no
quote, no backslash and no control character.** -/
theorem decodesToString_quoted_iff (v : List Char) :
    DecodesToString ('"' :: v ++ ['"']) v ↔ ∀ c ∈ v, Unescaped c := by
  constructor
  · rintro ⟨w₁, body, w₂, hw₁, -, heq, hb⟩
    cases w₁ with
    | cons c w₁ =>
      have hc : c = '"' := (List.cons_eq_cons.mp heq).1.symm
      rcases hw₁ c (by simp) with h | h | h | h <;> simp [h] at hc
    | nil =>
      have heq : v ++ ['"'] = body ++ '"' :: w₂ := by simpa using heq
      have hlen := congrArg List.length heq
      simp only [List.length_append, List.length_cons, List.length_nil] at hlen
      have hle := hb.length_le
      obtain ⟨rfl, -⟩ := List.append_inj heq (by omega)
      exact (hb.eq_of_length_le le_rfl).2
  · intro h
    exact ⟨[], v, [], by simp [IsWs], by simp [IsWs], by simp, .of_unescaped h⟩

/-! ### What a quote-and-bracket scanner sees -/

/-- The characters a scanner passes over without a state change outside quotes. -/
def IsPlain (c : Char) : Prop := c ≠ '"' ∧ c ≠ '\\' ∧ c ≠ '{' ∧ c ≠ '[' ∧ c ≠ '}' ∧ c ≠ ']'

/-- A string body where every `"` is escaped: what a scanner can pass over inside quotes. -/
inductive StrText : List Char → Prop
  | nil : StrText []
  | plain {t : List Char} (c : Char) : c ≠ '"' → c ≠ '\\' → StrText t → StrText (c :: t)
  | escape {t : List Char} (c : Char) : StrText t → StrText ('\\' :: c :: t)

/-- Plain characters, quoted strings and bracketed groups, in any order. -/
inductive Balanced : List Char → Prop
  | nil : Balanced []
  | plain {t : List Char} (c : Char) : IsPlain c → Balanced t → Balanced (c :: t)
  | string {body t : List Char} : StrText body → Balanced t → Balanced ('"' :: body ++ '"' :: t)
  | group {inner t : List Char} (o c : Char) : (o = '[' ∨ o = '{') → (c = ']' ∨ c = '}') →
      Balanced inner → Balanced t → Balanced (o :: inner ++ c :: t)

theorem StrText.append {s t : List Char} (hs : StrText s) (ht : StrText t) : StrText (s ++ t) := by
  induction hs with
  | nil => exact ht
  | plain c h1 h2 _ ih => exact .plain c h1 h2 ih
  | escape c _ ih => exact .escape c ih

theorem StrText.of_plain {s t : List Char} (hs : ∀ c ∈ s, c ≠ '"' ∧ c ≠ '\\')
    (ht : StrText t) : StrText (s ++ t) := by
  induction s with
  | nil => exact ht
  | cons c s ih =>
    exact .plain c (hs c (by simp)).1 (hs c (by simp)).2 (ih fun x hx => hs x (by simp [hx]))

/-- Hex digits are neither a quote nor a backslash. -/
theorem hexDigit_plain {c : Char} {d : Nat} (h : hexDigit c = some d) : c ≠ '"' ∧ c ≠ '\\' := by
  constructor <;> rintro rfl <;> cases h

theorem hexValue_plain {h : List Char} {n : Nat} (hn : hexValue h = some n) :
    ∀ c ∈ h, c ≠ '"' ∧ c ≠ '\\' := by
  induction h generalizing n with
  | nil => simp
  | cons c cs ih =>
    unfold hexValue at hn
    cases hc : hexDigit c <;> cases hcs : hexValue cs <;> simp [hc, hcs] at hn
    intro x hx
    rcases List.mem_cons.mp hx with rfl | hx
    · exact hexDigit_plain hc
    · exact ih hcs x hx

theorem StrBody.strText {t v : List Char} (h : StrBody t v) : StrText t := by
  induction h with
  | nil => exact .nil
  | unescaped c hc _ ih => exact .plain c hc.2.1 hc.2.2 ih
  | escape e d _ _ ih => exact .escape e ih
  | unicode hx n _ hn _ _ ih => exact .escape 'u' (.of_plain (hexValue_plain hn) ih)
  | surrogates h₁ h₂ n₁ n₂ _ _ hn₁ hn₂ _ _ _ ih =>
    simpa using StrText.escape 'u' (.of_plain (hexValue_plain hn₁)
      (.escape 'u' (.of_plain (hexValue_plain hn₂) ih)))
  | loneSurrogate hx n _ hn _ _ _ ih => exact .escape 'u' (.of_plain (hexValue_plain hn) ih)

theorem Balanced.append {s t : List Char} (hs : Balanced s) (ht : Balanced t) :
    Balanced (s ++ t) := by
  induction hs with
  | nil => exact ht
  | plain c hc _ ih => exact .plain c hc ih
  | string hb _ ih => simpa using Balanced.string hb ih
  | group o c ho hc hi _ _ ih => simpa using Balanced.group o c ho hc hi ih

theorem Balanced.of_plain {t : List Char} (h : ∀ c ∈ t, IsPlain c) : Balanced t := by
  induction t with
  | nil => exact .nil
  | cons c t ih => exact .plain c (h c (by simp)) (ih fun x hx => h x (by simp [hx]))

theorem isPlain_of_ws {c : Char} (h : c = ' ' ∨ c = '\t' ∨ c = '\n' ∨ c = '\r') : IsPlain c := by
  rcases h with rfl | rfl | rfl | rfl <;> (unfold IsPlain; decide)

theorem Balanced.of_ws {w : List Char} (h : IsWs w) : Balanced w :=
  .of_plain fun c hc => isPlain_of_ws (h c hc)

instance : DecidablePred IsPlain := fun _ => inferInstanceAs (Decidable (_ ∧ _))

theorem isPlain_of_isDigit {c : Char} (h : c.isDigit) : IsPlain c := by
  unfold IsPlain
  refine ⟨?_, ?_, ?_, ?_, ?_, ?_⟩ <;> rintro rfl <;> revert h <;> decide

theorem JsonNumber.plain {t : List Char} (h : JsonNumber t) : ∀ c ∈ t, IsPlain c := by
  obtain ⟨hm, hi, hf, he⟩ := h
  have digits : ∀ {ds : List Char}, (∀ c ∈ ds, c.isDigit) → ∀ c ∈ ds, IsPlain c :=
    fun hds c hc => isPlain_of_isDigit (hds c hc)
  intro c hc
  simp only [List.mem_append] at hc
  rcases hc with ((hc | hc) | hc) | hc
  · rcases hm with rfl | rfl <;> exact (by decide : ∀ c ∈ _, IsPlain c) c hc
  · rcases hi with rfl | ⟨d, ds, rfl, hd, -, hds⟩
    · exact (by decide : ∀ c ∈ _, IsPlain c) c hc
    · rcases List.mem_cons.mp hc with rfl | hc
      · exact isPlain_of_isDigit hd
      · exact digits hds c hc
  · rcases hf with rfl | ⟨ds, rfl, -, hds⟩
    · simp at hc
    · rcases List.mem_cons.mp hc with rfl | hc
      · decide
      · exact digits hds c hc
  · rcases he with rfl | ⟨x, sg, ds, rfl, hx, hs, -, hds⟩
    · simp at hc
    · simp only [List.cons_append, List.mem_cons, List.mem_append] at hc
      rcases hc with rfl | hc | hc
      · rcases hx with rfl | rfl <;> decide
      · rcases hs with rfl | rfl | rfl <;> exact (by decide : ∀ c ∈ _, IsPlain c) c hc
      · exact digits hds c hc

/-- Every production of the grammar is balanced. -/
theorem JsonText.balanced {k : JsonCat} {t : List Char} (h : JsonText k t) : Balanced t := by
  induction h with
  | literal h => rcases h with rfl | rfl | rfl <;> exact .of_plain (by decide)
  | number h => exact .of_plain h.plain
  | string h => exact .string h.strText .nil
  | arrayEmpty h => exact .group '[' ']' (.inl rfl) (.inl rfl) (.of_ws h) .nil
  | array _ ih => exact .group '[' ']' (.inl rfl) (.inl rfl) ih .nil
  | objectEmpty h => exact .group '{' '}' (.inr rfl) (.inr rfl) (.of_ws h) .nil
  | object _ ih => exact .group '{' '}' (.inr rfl) (.inr rfl) ih .nil
  | elementsOne h₁ _ h₂ ih => exact ((Balanced.of_ws h₁).append ih).append (.of_ws h₂)
  | elementsCons h₁ _ h₂ _ ihv ihr =>
    exact (((Balanced.of_ws h₁).append ihv).append (.of_ws h₂)).append
      (.plain ',' (by decide) ihr)
  | membersOne h₁ hb h₂ h₃ _ h₄ ih =>
    simpa using (Balanced.of_ws h₁).append (.string hb.strText ((Balanced.of_ws h₂).append
      (.plain ':' (by decide) ((Balanced.of_ws h₃).append (ih.append (.of_ws h₄))))))
  | membersCons h₁ hb h₂ h₃ _ h₄ _ ihv ihr =>
    simpa using (Balanced.of_ws h₁).append (.string hb.strText ((Balanced.of_ws h₂).append
      (.plain ':' (by decide) ((Balanced.of_ws h₃).append (ihv.append
        ((Balanced.of_ws h₄).append (.plain ',' (by decide) ihr)))))))

/-- An array or object: an opening bracket, a balanced inside, a closing bracket. -/
theorem JsonCompound.balanced {t : List Char} (h : JsonCompound t) :
    ∃ o c inner, t = o :: inner ++ [c] ∧ (o = '[' ∨ o = '{') ∧ (c = ']' ∨ c = '}') ∧
      Balanced inner := by
  obtain ⟨inner, ⟨rfl, hi⟩ | ⟨rfl, hi⟩⟩ := h
  · exact ⟨'[', ']', inner, rfl, .inl rfl, .inl rfl, hi.elim .of_ws JsonText.balanced⟩
  · exact ⟨'{', '}', inner, rfl, .inr rfl, .inr rfl, hi.elim .of_ws JsonText.balanced⟩

end Kro.Json
