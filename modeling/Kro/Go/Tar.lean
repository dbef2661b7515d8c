import Kro.Go.Runtime

/-!
# `archive/tar`, as the package commands use it

An archive is a list of entries, a name and a content each.  `tar.Writer` writes them, and
`tar.Reader` reads them back one `Next` at a time from a stream of bytes, which ends at its end
of file or at an error of the reader below.  `Next` reads the header of an entry; the entry's
data is read by `io.Copy` from the reader, or skipped by the next `Next`, and an error inside it
is the same either way.  `TarFormat.read` gives the entries read before the archive ended, and how
it ended (`TarEnd`): at its end, at a header, or inside the data of an entry, with the bytes of it
read before the error.  The header fields the commands set besides the name and the size (mode,
type flag, modification time) are left out.

The byte layout is a parameter: a format is any writer and reader with the round trip that
`archive/tar` has, that an archive reads back as the entries written.  `sampleTar` is one such
format, to run the model on; it also reads a stream cut short, as the data of an entry of
another archive is when that archive is.
-/

namespace Kro.Go

/-- How reading an archive ended: at its end, at a header it could not read, or inside the data
of an entry, after `got` of its bytes. -/
inductive TarEnd where
  | eof
  | header (err : String)
  | data (name : String) (got : List UInt8) (err : String)
  deriving Repr, DecidableEq

/-- A tar format: a writer, a reader of a stream of bytes that ends at its end of file (`none`)
or at an error, and that the reader reads back what the writer wrote. -/
structure TarFormat where
  write : List (String × List UInt8) → List UInt8
  read : List UInt8 → Option String → List (String × List UInt8) × TarEnd
  read_write : ∀ entries, read (write entries) none = (entries, .eof)

/-- Reading entries until the first of a name: its content, or how the archive ended before
it. -/
def scanFor (name : String) (read : List (String × List UInt8) × TarEnd) :
    Except TarEnd (List UInt8) :=
  match read.1.find? (·.1 = name) with
  | some e => .ok e.2
  | none => .error read.2

theorem scanFor_of_not_mem {name : String} {entries : List (String × List UInt8)}
    (h : name ∉ entries.map Prod.fst) (stop : TarEnd) :
    scanFor name (entries, stop) = .error stop := by
  have hnone : entries.find? (·.1 = name) = none :=
    List.find?_eq_none.mpr fun e he hn => h (List.mem_map.mpr ⟨e, he, of_decide_eq_true hn⟩)
  simp only [scanFor, hnone]

/-! ### A format to run the model on -/

/-- Bytes, each after a `1`, then a `0`. -/
def escape (bs : List UInt8) : List UInt8 := bs.flatMap (fun b => [1, b]) ++ [0]

/-- The bytes `escape` wrote, and what follows them; or, if the input ends first, the bytes
read before it did. -/
def unescape : List UInt8 → Except (List UInt8) (List UInt8 × List UInt8)
  | [] => .error []
  | m :: rest =>
    if m = 0 then .ok ([], rest)
    else match rest with
      | b :: rest =>
        match unescape rest with
        | .ok r => .ok (b :: r.1, r.2)
        | .error got => .error (b :: got)
      | [] => .error []

theorem uint8_one_ne_zero : (1 : UInt8) ≠ 0 := by decide

theorem unescape_escape (bs rest : List UInt8) : unescape (escape bs ++ rest) = .ok (bs, rest) := by
  induction bs with
  | nil => cases rest <;> simp [escape, unescape]
  | cons b bs ih =>
    simp only [escape, List.flatMap_cons, List.append_assoc, List.cons_append, List.nil_append]
      at ih ⊢
    simp [unescape, ih, uint8_one_ne_zero]

/-- A character in three bytes, the base-256 digits of its code point. -/
def charBytes (c : Char) : List UInt8 :=
  [UInt8.ofNat (c.toNat / 65536), UInt8.ofNat (c.toNat / 256 % 256), UInt8.ofNat (c.toNat % 256)]

/-- The characters of bytes `charBytes` wrote. -/
def bytesChars : List UInt8 → List Char
  | b₀ :: b₁ :: b₂ :: rest =>
    Char.ofNat (b₀.toNat * 65536 + b₁.toNat * 256 + b₂.toNat) :: bytesChars rest
  | _ => []

theorem toNat_lt_of_char (c : Char) : c.toNat < 0x110000 := by
  have h := c.valid
  simp only [UInt32.isValidChar, Nat.isValidChar] at h
  simp only [Char.toNat]
  omega

theorem bytesChars_charBytes (cs : List Char) : bytesChars (cs.flatMap charBytes) = cs := by
  induction cs with
  | nil => rfl
  | cons c cs ih =>
    have hc := toNat_lt_of_char c
    have h₀ : (UInt8.ofNat (c.toNat / 65536)).toNat = c.toNat / 65536 :=
      UInt8.toNat_ofNat_of_lt (by simp only [UInt8.size]; omega)
    have h₁ : (UInt8.ofNat (c.toNat / 256 % 256)).toNat = c.toNat / 256 % 256 :=
      UInt8.toNat_ofNat_of_lt (by simp only [UInt8.size]; omega)
    have h₂ : (UInt8.ofNat (c.toNat % 256)).toNat = c.toNat % 256 :=
      UInt8.toNat_ofNat_of_lt (by simp only [UInt8.size]; omega)
    have hn : c.toNat / 65536 * 65536 + c.toNat / 256 % 256 * 256 + c.toNat % 256 = c.toNat := by
      omega
    show bytesChars (charBytes c ++ cs.flatMap charBytes) = c :: cs
    simp only [charBytes, List.cons_append, List.nil_append, bytesChars, h₀, h₁, h₂, hn,
      Char.ofNat_toNat, List.append_eq, ih]

/-- One entry: a `1`, then its name and its content, escaped. -/
def sampleEntry (e : String × List UInt8) : List UInt8 :=
  1 :: (escape (e.1.toList.flatMap charBytes) ++ escape e.2)

/-- The entries, then a `0`. -/
def sampleWrite (entries : List (String × List UInt8)) : List UInt8 :=
  entries.flatMap sampleEntry ++ [0]

/-- How a stream that ends at `stop` ends where more bytes are needed. -/
def cutShort (stop : Option String) : String := stop.getD "unexpected EOF"

/-- Reading entries, at most `fuel` of them, from bytes that end at `stop`. -/
def sampleReadFuel : Nat → List UInt8 → Option String → List (String × List UInt8) × TarEnd
  | 0, _, _ => ([], .header "archive/tar: invalid tar header")
  | _ + 1, [], none => ([], .eof)
  | _ + 1, [], some e => ([], .header e)
  | fuel + 1, m :: rest, stop =>
    if m = 0 then ([], .eof)
    else match unescape rest with
      | .error _ => ([], .header (cutShort stop))
      | .ok (name, rest) =>
        match unescape rest with
        | .error got => ([], .data (String.mk (bytesChars name)) got (cutShort stop))
        | .ok (content, rest) =>
          let r := sampleReadFuel fuel rest stop
          ((String.mk (bytesChars name), content) :: r.1, r.2)

theorem sampleReadFuel_write (entries : List (String × List UInt8)) (fuel : Nat)
    (h : entries.length < fuel) : sampleReadFuel fuel (sampleWrite entries) none = (entries, .eof) := by
  induction entries generalizing fuel with
  | nil => cases fuel <;> first | omega | rfl
  | cons e entries ih =>
    obtain ⟨fuel, rfl⟩ : ∃ n, fuel = n + 1 := ⟨fuel - 1, by simp at h; omega⟩
    simp only [List.length_cons, Nat.add_lt_add_iff_right] at h
    simp only [sampleWrite, List.flatMap_cons, sampleEntry, List.cons_append, List.append_assoc]
      at ih ⊢
    simp only [sampleReadFuel, if_neg uint8_one_ne_zero, unescape_escape, ih fuel h,
      bytesChars_charBytes]
    rfl

theorem length_le_sampleWrite (entries : List (String × List UInt8)) :
    entries.length < (sampleWrite entries).length := by
  induction entries with
  | nil => simp [sampleWrite]
  | cons e entries ih =>
    simp only [sampleWrite, List.flatMap_cons, sampleEntry, List.length_append, List.length_cons]
      at ih ⊢
    omega

/-- A tar format to run the model on. -/
def sampleTar : TarFormat where
  write := sampleWrite
  read := fun bs stop => sampleReadFuel bs.length bs stop
  read_write := fun entries => sampleReadFuel_write entries _ (length_le_sampleWrite entries)

/-- An archive cut inside the data of its second entry reads as its first, then the bytes of
the second before the cut. -/
example : sampleTar.read ((sampleWrite [("a", [7]), ("b", [8, 9])]).take 21) (some "cut") =
    ([("a", [7])], .data "b" [8] "cut") := by
  decide

end Kro.Go
