import Mathlib.Data.List.Basic

/-!
# The Go runtime and standard library, as far as the modelled code calls it

Everything kro's schema compiler and delta computer take from Go itself: a call that can
end in a returned `error` or in a run-time panic, the `map[string]V` they iterate and
update, `unicode.IsSpace`, `strings.TrimSpace`, `strings.Split` on one rune, and the
`strconv` functions `ParseBool`, `ParseInt(s, 10, 64)` and `Quote` (what `%q` prints).

Two parts of the standard library are not transcribed, because they are tables or whole
sub-languages of their own: the Unicode printability tables behind `strconv.IsPrint` above
Latin-1, and the syntax accepted by `strconv.ParseFloat` and `regexp.Compile`.  They are the
fields of `GoLib`, a parameter of every function that reaches them, so every theorem below
holds for whatever the real library does there.

A Go `map` is an association list whose order is the order `range` visits it in: a theorem
over every list is a theorem over every map and every iteration order.
-/

namespace Kro.Go

/-- How a Go call can end other than with a value: a returned `error`, or a run-time panic. -/
inductive GoError where
  | error (msg : String)
  | panic (msg : String)
  deriving Repr, DecidableEq

/-- Results of concrete runs are compared by `decide`. -/
instance instDecidableEqExcept {ε α : Type} [DecidableEq ε] [DecidableEq α] :
    DecidableEq (Except ε α)
  | .ok x, .ok y => if h : x = y then isTrue (h ▸ rfl) else isFalse fun e => h (Except.ok.inj e)
  | .error x, .error y =>
    if h : x = y then isTrue (h ▸ rfl) else isFalse fun e => h (Except.error.inj e)
  | .ok _, .error _ => isFalse fun e => Except.noConfusion e
  | .error _, .ok _ => isFalse fun e => Except.noConfusion e

theorem except_map_eq_ok {ε α β : Type} {f : α → β} {x : Except ε α} {y : β} :
    x.map f = .ok y ↔ ∃ a, x = .ok a ∧ f a = y := by
  cases x <;> simp [Except.map]

theorem except_map_isOk {ε α β : Type} {f : α → β} {x : Except ε α} :
    (∃ b, x.map f = .ok b) ↔ ∃ a, x = .ok a := by
  cases x <;> simp [Except.map]

theorem except_bind_eq_ok {ε α β : Type} {f : α → Except ε β} {x : Except ε α} {y : β} :
    x.bind f = .ok y ↔ ∃ a, x = .ok a ∧ f a = .ok y := by
  cases x <;> simp [Except.bind]

/-- `fmt.Errorf(pre + "%w", err)`: a returned error gets the prefix; a panic unwinds past the
call unchanged. -/
def GoError.wrap (pre : String) : GoError → GoError
  | .error msg => .error (pre ++ msg)
  | .panic msg => .panic msg

/-- `return ..., fmt.Errorf(msg)`. -/
def fail {α : Type} (msg : String) : Except GoError α := .error (.error msg)

/-- Wrap the error of a call that failed; a success is passed through. -/
def wrapErr {α : Type} (pre : String) : Except GoError α → Except GoError α
  | .ok a => .ok a
  | .error e => .error (e.wrap pre)

@[simp] theorem wrapErr_ok {α : Type} (pre : String) (x : Except GoError α) (a : α) :
    wrapErr pre x = .ok a ↔ x = .ok a := by
  cases x <;> simp [wrapErr]

theorem wrapErr_isOk {α : Type} (pre : String) (x : Except GoError α) :
    (∃ a, wrapErr pre x = .ok a) ↔ ∃ a, x = .ok a := by
  simp

/-! ### `map[string]V` -/

/-- A Go `map[string]V`, listed in one iteration order. -/
abbrev GoMap (V : Type) := List (String × V)

namespace GoMap

variable {V : Type}

/-- `v, ok := m[k]`. -/
def get : GoMap V → String → Option V
  | [], _ => none
  | (k', v) :: m, k => if k = k' then some v else get m k

/-- `delete(m, k)`. -/
def delete (m : GoMap V) (k : String) : GoMap V := m.filter fun e => e.1 ≠ k

/-- `m[k] = v`: overwrite the entry for `k`, or add one. -/
def set : GoMap V → String → V → GoMap V
  | [], k, v => [(k, v)]
  | (k', v') :: m, k, v => if k' = k then (k, v) :: m else (k', v') :: set m k v

@[simp] theorem get_nil (k : String) : get ([] : GoMap V) k = none := rfl

theorem get_cons (k k' : String) (v : V) (m : GoMap V) :
    get ((k', v) :: m) k = if k = k' then some v else get m k := rfl

theorem get_delete (m : GoMap V) (k j : String) :
    get (delete m k) j = if j = k then none else get m j := by
  induction m with
  | nil => simp [delete]
  | cons e m ih =>
    obtain ⟨k', v⟩ := e
    by_cases hk : k' = k
    · subst hk
      by_cases hj : j = k' <;> simp_all [delete, get_cons]
    · have : delete ((k', v) :: m) k = (k', v) :: delete m k := by simp [delete, hk]
      rw [this, get_cons, get_cons, ih]
      by_cases hj : j = k' <;> simp_all

theorem get_set (m : GoMap V) (k j : String) (v : V) :
    get (set m k v) j = if j = k then some v else get m j := by
  induction m with
  | nil => simp [set, get_cons]
  | cons e m ih =>
    obtain ⟨k', v'⟩ := e
    simp only [set]
    split
    · next h => subst h; by_cases hj : j = k' <;> simp [get_cons, hj]
    · next h => rw [get_cons, get_cons, ih]; by_cases hj : j = k' <;> simp_all

theorem keys_delete_sublist (m : GoMap V) (k : String) :
    ((delete m k).map Prod.fst).Sublist (m.map Prod.fst) :=
  (List.filter_sublist m).map Prod.fst

theorem mem_of_mem_delete {m : GoMap V} {k : String} {kv : String × V} (h : kv ∈ delete m k) :
    kv ∈ m :=
  (List.mem_filter.mp h).1

/-- Overwriting a present key keeps the key list. -/
theorem keys_set {m : GoMap V} {k : String} (h : (get m k).isSome) (v : V) :
    (set m k v).map Prod.fst = m.map Prod.fst := by
  induction m with
  | nil => simp at h
  | cons e m ih =>
    obtain ⟨k', v'⟩ := e
    rw [get_cons] at h
    by_cases hk : k' = k
    · simp [set, hk]
    · simp [set, hk, ih (by simpa [Ne.symm hk] using h)]

theorem mem_set {m : GoMap V} {k : String} {v : V} {kv : String × V} (h : kv ∈ set m k v) :
    kv ∈ m ∨ kv = (k, v) := by
  induction m with
  | nil => simp_all [set]
  | cons e m ih =>
    simp only [set] at h
    split at h
    · rcases List.mem_cons.mp h with h | h
      · exact .inr h
      · exact .inl (List.mem_cons_of_mem _ h)
    · rcases List.mem_cons.mp h with h | h
      · exact .inl (h ▸ List.mem_cons_self _ _)
      · exact (ih h).imp_left (List.mem_cons_of_mem _)

theorem mem_of_get {m : GoMap V} {k : String} {v : V} (h : get m k = some v) : (k, v) ∈ m := by
  induction m with
  | nil => simp at h
  | cons e m ih =>
    obtain ⟨k', v'⟩ := e
    rw [get_cons] at h
    split at h
    · next hk => cases h; simp [hk]
    · exact List.mem_cons_of_mem _ (ih h)

/-- In a map with distinct keys, an entry is what the lookup of its key finds. -/
theorem get_of_mem {m : GoMap V} (hn : (m.map Prod.fst).Nodup) {k : String} {v : V}
    (h : (k, v) ∈ m) : get m k = some v := by
  induction m with
  | nil => simp at h
  | cons e m ih =>
    obtain ⟨k', v'⟩ := e
    simp only [List.map_cons, List.nodup_cons] at hn
    rw [get_cons]
    rcases List.mem_cons.mp h with h | h
    · cases h; simp
    · have : k ≠ k' := fun hk => hn.1 (hk ▸ List.mem_map_of_mem Prod.fst h)
      simp [this, ih hn.2 h]

/-- In a map with distinct keys, setting a present key replaces its entry in place. -/
theorem set_eq_map {m : GoMap V} (hn : (m.map Prod.fst).Nodup) {k : String}
    (hk : (get m k).isSome) (v : V) :
    set m k v = m.map fun e => if e.1 = k then (k, v) else e := by
  induction m with
  | nil => simp at hk
  | cons e m ih =>
    obtain ⟨k', v'⟩ := e
    simp only [List.map_cons, List.nodup_cons] at hn
    by_cases hk' : k' = k
    · subst hk'
      have hrest : ∀ e ∈ m, e.1 ≠ k' := fun e he h => hn.1 (h ▸ List.mem_map_of_mem Prod.fst he)
      simp only [set, if_true, List.map_cons, List.cons.injEq, true_and]
      exact (List.map_congr_left fun e he => if_neg (hrest e he)).trans (List.map_id' m) |>.symm
    · rw [get_cons, if_neg (Ne.symm hk')] at hk
      simp only [set, if_neg hk', List.map_cons, ih hn.2 hk]

/-- Setting an absent key adds it last. -/
theorem keys_set_of_get_none {m : GoMap V} {k : String} (h : get m k = none) (v : V) :
    (set m k v).map Prod.fst = m.map Prod.fst ++ [k] := by
  induction m with
  | nil => rfl
  | cons e m ih =>
    obtain ⟨k', v'⟩ := e
    rw [get_cons] at h
    by_cases hk : k' = k
    · simp [hk] at h
    · simp [set, hk, ih (by simpa [Ne.symm hk] using h)]

/-- The lookup does not see the order of a map with distinct keys. -/
theorem get_perm {m m' : GoMap V} (hn : (m.map Prod.fst).Nodup) (hp : m'.Perm m) (k : String) :
    get m' k = get m k := by
  have hn' : (m'.map Prod.fst).Nodup := (hp.map Prod.fst).nodup_iff.mpr hn
  cases h : get m k with
  | some v => exact get_of_mem hn' (hp.mem_iff.mpr (mem_of_get h))
  | none =>
    cases h' : get m' k with
    | none => rfl
    | some v => rw [get_of_mem hn (hp.mem_iff.mp (mem_of_get h'))] at h; cases h

end GoMap

/-! ### `unicode` and `strings` -/

/-- `unicode.IsSpace`: the Latin-1 spaces, then the rest of Unicode's `White_Space`. -/
def isSpace (c : Char) : Bool :=
  let n := c.toNat
  if n ≤ 0xFF then
    n = 0x09 || n = 0x0A || n = 0x0B || n = 0x0C || n = 0x0D || n = 0x20 || n = 0x85 ||
      n = 0xA0
  else
    n = 0x1680 || (0x2000 ≤ n && n ≤ 0x200A) || n = 0x2028 || n = 0x2029 || n = 0x202F ||
      n = 0x205F || n = 0x3000

/-- `strings.TrimSpace`. -/
def trimSpace (s : List Char) : List Char :=
  ((s.dropWhile isSpace).reverse.dropWhile isSpace).reverse

/-- `strings.Split(s, sep)` for a separator of one rune: the pieces between the separators,
always at least one. -/
def stringsSplit (sep : Char) (s : List Char) : List (List Char) := s.splitOn sep

theorem stringsSplit_ne_nil (sep : Char) (s : List Char) : stringsSplit sep s ≠ [] :=
  List.splitOnP_ne_nil _ s

theorem stringsSplit_of_not_mem {sep : Char} {s : List Char} (h : sep ∉ s) :
    stringsSplit sep s = [s] :=
  List.splitOnP_eq_single (· == sep) s fun _ hx he => h (eq_of_beq he ▸ hx)

theorem stringsSplit_append_cons {sep : Char} {s : List Char} (h : sep ∉ s) (rest : List Char) :
    stringsSplit sep (s ++ sep :: rest) = s :: stringsSplit sep rest :=
  List.splitOnP_first (· == sep) s (fun _ hx he => h (eq_of_beq he ▸ hx)) sep (beq_self_eq_true sep)
    rest

/-- A separator ends the last piece of the text before it. -/
theorem stringsSplit_append_sep (sep : Char) (s rest : List Char) :
    stringsSplit sep (s ++ sep :: rest) = stringsSplit sep s ++ stringsSplit sep rest := by
  induction s with
  | nil => simp [stringsSplit, List.splitOn, List.splitOnP_cons]
  | cons c s ih =>
    simp only [stringsSplit, List.splitOn, List.cons_append, List.splitOnP_cons] at ih ⊢
    split
    · rw [ih]; rfl
    · rw [ih]
      cases h : List.splitOnP (· == sep) s with
      | nil => exact absurd h (List.splitOnP_ne_nil _ s)
      | cons p ps => rfl

/-- A text with no separator is all before it (`strings.Cut` finds none). -/
theorem takeWhile_dropWhile_of_not_mem {sep : Char} {l : List Char} (h : sep ∉ l) :
    l.takeWhile (· ≠ sep) = l ∧ l.dropWhile (· ≠ sep) = [] := by
  induction l with
  | nil => exact ⟨rfl, rfl⟩
  | cons c l ih =>
    simp only [List.mem_cons, not_or] at h
    have hc : decide (c ≠ sep) = true := decide_eq_true (Ne.symm h.1)
    obtain ⟨h₁, h₂⟩ := ih h.2
    exact ⟨by rw [List.takeWhile_cons, if_pos hc, h₁], by rw [List.dropWhile_cons, if_pos hc, h₂]⟩

/-- `strings.Cut` at the first separator. -/
theorem takeWhile_dropWhile_append {sep : Char} {l : List Char} (h : sep ∉ l) (q : List Char) :
    (l ++ sep :: q).takeWhile (· ≠ sep) = l ∧ (l ++ sep :: q).dropWhile (· ≠ sep) = sep :: q := by
  induction l with
  | nil => simp
  | cons c l ih =>
    simp only [List.mem_cons, not_or] at h
    have hc : decide (c ≠ sep) = true := decide_eq_true (Ne.symm h.1)
    obtain ⟨h₁, h₂⟩ := ih h.2
    rw [List.cons_append]
    exact ⟨by rw [List.takeWhile_cons, if_pos hc, h₁], by rw [List.dropWhile_cons, if_pos hc, h₂]⟩

/-- `strings.Replace(s, old, new, 1)`, on bytes: the first occurrence of `old` replaced (an empty
`old` occurs at the start). -/
def replaceFirst (old new : List UInt8) : List UInt8 → List UInt8
  | [] => if old = [] then new else []
  | b :: rest =>
    if old.isPrefixOf (b :: rest) then new ++ (b :: rest).drop old.length
    else b :: replaceFirst old new rest

/-- `strings.TrimPrefix`. -/
def trimPrefix (pre s : String) : String :=
  if pre.toList.isPrefixOf s.toList then String.mk (s.toList.drop pre.length) else s

@[simp] theorem trimPrefix_append (pre s : String) : trimPrefix pre (pre ++ s) = s := by
  have hs : (pre ++ s).toList = pre.toList ++ s.toList := String.data_append pre s
  rw [trimPrefix, hs, if_pos (List.isPrefixOf_iff_prefix.mpr (List.prefix_append _ _))]
  exact congrArg String.mk (List.drop_left _ _)

theorem trimSpace_nil : trimSpace [] = [] := rfl

/-- A text with no space at either end is its own trim. -/
theorem trimSpace_eq_self (s : List Char) (hh : ∀ c ∈ s.head?, isSpace c = false)
    (hl : ∀ c ∈ s.getLast?, isSpace c = false) : trimSpace s = s := by
  have drop_self : ∀ l : List Char, (∀ c ∈ l.head?, isSpace c = false) →
      l.dropWhile isSpace = l := by
    intro l h
    cases l with
    | nil => rfl
    | cons c l => simp [List.dropWhile_cons, h c rfl]
  rw [trimSpace, drop_self s hh, drop_self s.reverse (by simpa [List.head?_reverse] using hl),
    List.reverse_reverse]

/-! ### `strconv` -/

/-- The parts of Go's standard library that are tables or sub-languages of their own, left as
parameters: `strconv.IsPrint` above Latin-1, `strconv.ParseFloat(s, 64)` (the IEEE-754 bits
of the result, or the error text) and `regexp.Compile` (`none` when the pattern compiles). -/
structure GoLib where
  isPrintWide : Char → Bool
  parseFloat : String → Except String UInt64
  regexpCompile : String → Option String

/-- A library for runs on inputs that never reach its tables: nothing above Latin-1 is
printable, no float parses, every pattern compiles. -/
def GoLib.minimal : GoLib := ⟨fun _ => false, fun _ => .error "invalid syntax", fun _ => none⟩

/-- `strconv.IsPrint`: exact on Latin-1, the tables above it. -/
def isPrint (lib : GoLib) (c : Char) : Bool :=
  let n := c.toNat
  if n ≤ 0xFF then (0x20 ≤ n && n ≤ 0x7E) || (0xA1 ≤ n && n ≠ 0xAD) else lib.isPrintWide c

/-- The lower-case hex digits of `n`, `w` of them. -/
def lowerHex (n : Nat) : Nat → List Char
  | 0 => []
  | w + 1 => lowerHex (n / 16) w ++ [Nat.digitChar (n % 16)]

/-- `appendEscapedRune` with quote `"`, as `strconv.Quote` calls it. -/
def quoteRune (lib : GoLib) (c : Char) : List Char :=
  if c = '"' ∨ c = '\\' then ['\\', c]
  else if isPrint lib c then [c]
  else if c = '\x07' then ['\\', 'a']
  else if c = '\x08' then ['\\', 'b']
  else if c = '\x0c' then ['\\', 'f']
  else if c = '\n' then ['\\', 'n']
  else if c = '\r' then ['\\', 'r']
  else if c = '\t' then ['\\', 't']
  else if c = '\x0b' then ['\\', 'v']
  else if c.toNat < 0x20 ∨ c.toNat = 0x7F then ['\\', 'x'] ++ lowerHex c.toNat 2
  else if c.toNat < 0x10000 then ['\\', 'u'] ++ lowerHex c.toNat 4
  else ['\\', 'U'] ++ lowerHex c.toNat 8

/-- `strconv.Quote`, which is what `fmt.Sprintf("%q", s)` prints for a string. -/
def quote (lib : GoLib) (s : List Char) : List Char :=
  '"' :: s.flatMap (quoteRune lib) ++ ['"']

/-! ### Bytes -/

/-- The bytes of a text, which is what a Go string holds: its UTF-8 encoding. -/
def utf8Bytes (s : List Char) : List UInt8 := s.flatMap String.utf8EncodeChar

/-- `utf8.DecodeRune`: the rune the bytes start with and its width, or `none` where they start
with no valid encoding, where Go returns `RuneError` of width 1 (a continuation byte, an
overlong or surrogate encoding, a value past U+10FFFF, or too few bytes). -/
def decodeRune : List UInt8 → Option (Char × Nat)
  | [] => none
  | b₀ :: rest =>
    let n₀ := b₀.toNat
    let cont (b : UInt8) : Bool := 0x80 ≤ b.toNat && b.toNat ≤ 0xBF
    if n₀ < 0x80 then some (Char.ofNat n₀, 1)
    else if n₀ < 0xC2 then none
    else if n₀ < 0xE0 then
      match rest with
      | b₁ :: _ =>
        if cont b₁ then some (Char.ofNat ((n₀ - 0xC0) * 0x40 + (b₁.toNat - 0x80)), 2) else none
      | [] => none
    else if n₀ < 0xF0 then
      let lo := if n₀ = 0xE0 then 0xA0 else 0x80
      let hi := if n₀ = 0xED then 0x9F else 0xBF
      match rest with
      | b₁ :: b₂ :: _ =>
        if lo ≤ b₁.toNat && b₁.toNat ≤ hi && cont b₂ then
          some (Char.ofNat ((n₀ - 0xE0) * 0x1000 + (b₁.toNat - 0x80) * 0x40 + (b₂.toNat - 0x80)), 3)
        else none
      | _ => none
    else if n₀ < 0xF5 then
      let lo := if n₀ = 0xF0 then 0x90 else 0x80
      let hi := if n₀ = 0xF4 then 0x8F else 0xBF
      match rest with
      | b₁ :: b₂ :: b₃ :: _ =>
        if lo ≤ b₁.toNat && b₁.toNat ≤ hi && cont b₂ && cont b₃ then
          some (Char.ofNat ((n₀ - 0xF0) * 0x40000 + (b₁.toNat - 0x80) * 0x1000 +
            (b₂.toNat - 0x80) * 0x40 + (b₃.toNat - 0x80)), 4)
        else none
      | _ => none
    else none

/-- The loop of `strconv.Quote` over a byte string, at most `fuel` runes: a rune is written as
`quoteRune` writes it, a byte that starts none as `\xNN`. -/
def quoteBytesAux (lib : GoLib) : Nat → List UInt8 → List Char
  | 0, _ => []
  | _ + 1, [] => []
  | fuel + 1, b :: rest =>
    match decodeRune (b :: rest) with
    | some (r, w) => quoteRune lib r ++ quoteBytesAux lib fuel ((b :: rest).drop w)
    | none => '\\' :: 'x' :: lowerHex b.toNat 2 ++ quoteBytesAux lib fuel rest

/-- `strconv.Quote` of a byte string, which need not be valid UTF-8.  Each step consumes a
byte at least, so the length of the string is fuel enough. -/
def quoteBytes (lib : GoLib) (bs : List UInt8) : List Char :=
  '"' :: quoteBytesAux lib bs.length bs ++ ['"']

theorem utf8EncodeChar_of_lt {c : Char} (h : c.toNat < 0x80) :
    String.utf8EncodeChar c = [UInt8.ofNat c.toNat] := by
  have hv : c.val ≤ 0x7f := (Nat.le_of_lt_succ h : c.toNat ≤ 127)
  simp only [String.utf8EncodeChar, if_pos hv]
  rfl

/-- An ASCII text is one byte a character. -/
theorem utf8Bytes_of_ascii {s : List Char} (h : ∀ c ∈ s, c.toNat < 0x80) :
    utf8Bytes s = s.map fun c => UInt8.ofNat c.toNat := by
  induction s with
  | nil => rfl
  | cons c s ih =>
    simp only [List.forall_mem_cons] at h
    simp only [utf8Bytes, List.flatMap_cons, List.map_cons, utf8EncodeChar_of_lt h.1] at ih ⊢
    rw [ih h.2]
    rfl

theorem ofNat_toNat_ofNat {c : Char} (h : c.toNat < 0x80) :
    Char.ofNat (UInt8.ofNat c.toNat).toNat = c := by
  rw [UInt8.toNat_ofNat_of_lt (by simp only [UInt8.size]; omega)]
  exact Char.ofNat_toNat c

theorem decodeRune_of_lt {b : UInt8} (h : b.toNat < 0x80) (rest : List UInt8) :
    decodeRune (b :: rest) = some (Char.ofNat b.toNat, 1) := by
  simp only [decodeRune, if_pos h]

theorem quoteBytesAux_ascii (lib : GoLib) {s : List Char} (h : ∀ c ∈ s, c.toNat < 0x80) :
    ∀ fuel, s.length ≤ fuel →
      quoteBytesAux lib fuel (s.map fun c => UInt8.ofNat c.toNat) = s.flatMap (quoteRune lib) := by
  induction s with
  | nil => intro fuel _; cases fuel <;> rfl
  | cons c s ih =>
    intro fuel hf
    simp only [List.forall_mem_cons] at h
    obtain ⟨fuel, rfl⟩ : ∃ f, fuel = f + 1 := ⟨fuel - 1, by simp at hf; omega⟩
    have hb : (UInt8.ofNat c.toNat).toNat < 0x80 := by
      rw [UInt8.toNat_ofNat_of_lt (by simp only [UInt8.size]; omega)]; exact h.1
    simp only [List.map_cons, quoteBytesAux, decodeRune_of_lt hb, ofNat_toNat_ofNat h.1,
      List.drop_one, List.tail_cons, List.flatMap_cons]
    rw [ih h.2 fuel (by simpa using hf)]

/-- On an ASCII text, quoting the bytes is quoting the characters. -/
theorem quoteBytes_utf8Bytes (lib : GoLib) {s : List Char} (h : ∀ c ∈ s, c.toNat < 0x80) :
    quoteBytes lib (utf8Bytes s) = quote lib s := by
  rw [quoteBytes, utf8Bytes_of_ascii h, quoteBytesAux_ascii lib h _ (by simp), quote]

/-- A printable ASCII character other than a quote or a backslash is quoted as it is. -/
def IsPlain (c : Char) : Prop := 0x20 ≤ c.toNat ∧ c.toNat ≤ 0x7E ∧ c ≠ '"' ∧ c ≠ '\\'

instance (c : Char) : Decidable (IsPlain c) := inferInstanceAs (Decidable (_ ∧ _ ∧ _ ∧ _))

theorem quoteRune_plain (lib : GoLib) {c : Char} (h : IsPlain c) : quoteRune lib c = [c] := by
  obtain ⟨h₁, h₂, hq, hb⟩ := h
  have hp : isPrint lib c = true := by
    simp only [isPrint, if_pos (by omega : c.toNat ≤ 0xFF)]
    simp [h₁, h₂]
  simp only [quoteRune, hp, hq, hb, or_self, if_false, if_true]

theorem quote_plain (lib : GoLib) {s : List Char} (h : ∀ c ∈ s, IsPlain c) :
    quote lib s = '"' :: s ++ ['"'] := by
  have hs : s.flatMap (quoteRune lib) = s := by
    induction s with
    | nil => rfl
    | cons c s ih =>
      simp only [List.forall_mem_cons] at h
      rw [List.flatMap_cons, quoteRune_plain lib h.1, ih h.2, List.singleton_append]
  rw [quote, hs]

/-- The text of a `*strconv.NumError`. -/
def numError (lib : GoLib) (fn : String) (s : String) (err : String) : GoError :=
  .error ("strconv." ++ fn ++ ": parsing " ++ String.mk (quote lib s.toList) ++ ": " ++ err)

/-- `strconv.ParseBool`. -/
def parseBool (lib : GoLib) (str : String) : Except GoError Bool :=
  if str ∈ ["1", "t", "T", "TRUE", "true", "True"] then .ok true
  else if str ∈ ["0", "f", "F", "FALSE", "false", "False"] then .ok false
  else .error (numError lib "ParseBool" str "invalid syntax")

/-- `strconv.ParseFloat(s, 64)`: the syntax and the rounding are the library's. -/
def parseFloat (lib : GoLib) (s : String) : Except GoError UInt64 :=
  match lib.parseFloat s with
  | .ok bits => .ok bits
  | .error err => .error (numError lib "ParseFloat" s err)

/-- `uint64(1 << 63)`, the `cutoff` of `strconv.ParseInt` at 64 bits. -/
def cutoff : Nat := 9223372036854775808

/-- The loop of `strconv.ParseUint(s, 10, 64)` from the value `n` read so far. A byte that is
not a decimal digit is a syntax error (a non-ASCII rune's first byte is not one); a digit that
takes the value past `maxUint64` (Go's checks `n >= cutoff` and `n1 < n` together) is a range
error, returned before any later byte is read. -/
def parseUintLoop : Nat → List Char → Except String Nat
  | n, [] => .ok n
  | n, c :: cs =>
    if !c.isDigit then .error "invalid syntax"
    else if 18446744073709551615 < 10 * n + (c.toNat - '0'.toNat) then .error "value out of range"
    else parseUintLoop (10 * n + (c.toNat - '0'.toNat)) cs

/-- `strconv.ParseInt(s, 10, 64)`: an optional sign, then `ParseUint` on the rest (an empty rest
is a syntax error; no `_` in base 10), with the value inside `int64`. On a range error
`ParseUint` returns `maxUint64`, which is past `cutoff` whatever the sign, so both of its errors
come back under `ParseInt`'s name with the whole text. -/
def parseInt (lib : GoLib) (s : String) : Except GoError Int :=
  let (neg, ds) : Bool × List Char := match s.toList with
    | '+' :: r => (false, r)
    | '-' :: r => (true, r)
    | r => (false, r)
  match (if ds.isEmpty then .error "invalid syntax" else parseUintLoop 0 ds : Except String Nat) with
  | .error err => .error (numError lib "ParseInt" s err)
  | .ok un =>
    if (!neg && cutoff ≤ un) || (neg && cutoff < un) then
      .error (numError lib "ParseInt" s "value out of range")
    else .ok (if neg then -(un : Int) else un)

/-- A value past `maxUint64` is out of range even when a later byte is not a digit. -/
example : parseUintLoop 0 "99999999999999999999x".toList = .error "value out of range" := by
  decide

theorem parseBool_ok_true (lib : GoLib) (str : String) :
    parseBool lib str = .ok true ↔ str ∈ ["1", "t", "T", "TRUE", "true", "True"] := by
  unfold parseBool
  split
  · simp_all
  · split <;> simp_all

end Kro.Go
