import Kro.Go.Runtime

/-!
# `net/url`, as `http.NewRequest` and `http.Client.Do` use it

`url.Parse` of Go 1.22 with its error texts, and the parts of a `*url.URL` that `net/http`
reads when it sends a request: `String`, which a failed request's `*url.Error` quotes, and
`RequestURI`, which goes on the wire with the host.

Go's parser works on the bytes of the text.  Every byte it tests is ASCII (a separator, a `%`,
a character of the scheme), and the bytes of a rune above ASCII all fall in its cases for
"any other byte", so the parser here runs on characters.  Bytes appear in two places: an
`EscapeError` quotes the three bytes from its `%`, which can end inside a rune, and `%XX`
decodes to the byte `XX`.  A URL keeps its host, user, path and fragment as written, where Go
keeps their decoded bytes (and the path and the fragment as written too, when they are not the
default encoding of the bytes); every use of them below decodes and encodes them as Go does.

* `parseURL_https` — a text `https://host/path?query` whose host and path need no escape parses
  to its parts, and the URL's wire form is the text again (`wireText_https`).

Outside this model: the `encodePathSegment` and `encodeQueryComponent` encodings, which `Parse`
does not use, and the resolution of a reference against a base URL, which only redirects use.
-/

namespace Kro.Go.Url

open Kro.Go

/-! ### Escapes -/

/-- The part of a URL that `escape` and `unescape` work on (Go's `encoding`). -/
inductive Encoding where
  | path
  | host
  | zone
  | userPassword
  | fragment
  deriving DecidableEq, Repr

/-- An ASCII letter or digit, as `shouldEscape` tests a byte. -/
def isAlnumByte (c : Nat) : Bool :=
  (0x61 ≤ c && c ≤ 0x7A) || (0x41 ≤ c && c ≤ 0x5A) || (0x30 ≤ c && c ≤ 0x39)

/-- `shouldEscape`: whether a byte is written `%XX` in a part of a URL.  Every byte above ASCII
is, so `shouldEscape c.toNat` says of a character whether its bytes are. -/
def shouldEscape (c : Nat) (mode : Encoding) : Bool :=
  if isAlnumByte c then false
  else if (mode = .host || mode = .zone) &&
      "!$&\x27()*+,;=:[]<>\"".toList.any (·.toNat = c) then false
  else if "-_.~".toList.any (·.toNat = c) then false
  else if "$&+,/:;=?@".toList.any (·.toNat = c) then
    match mode with
    | .path => c = 0x3F
    | .userPassword => c = 0x40 || c = 0x2F || c = 0x3F || c = 0x3A
    | .fragment => false
    | .host | .zone => true
  else !(mode = .fragment && "!()*".toList.any (·.toNat = c))

/-- `ishex`. -/
def isHex (c : Char) : Bool := c.isDigit || ('a' ≤ c && c ≤ 'f') || ('A' ≤ c && c ≤ 'F')

/-- `unhex`. -/
def unhex (c : Char) : Nat :=
  if c.isDigit then c.toNat - 0x30
  else if 'a' ≤ c && c ≤ 'f' then c.toNat - 0x57
  else if 'A' ≤ c && c ≤ 'F' then c.toNat - 0x37
  else 0

/-- An upper-case hex digit, as `escape` writes it. -/
def upperHex (d : Nat) : Char := (Nat.digitChar d).toUpper

/-- `EscapeError(s).Error()`, for the text from a malformed `%` on: Go quotes the first three
bytes of it, which can end inside a rune. -/
def escapeError (lib : GoLib) (s : List Char) : String :=
  "invalid URL escape " ++ String.mk (quoteBytes lib ((utf8Bytes s).take 3))

/-- `InvalidHostError(c).Error()`. -/
def invalidHostError (lib : GoLib) (c : Char) : String :=
  "invalid character " ++ String.mk (quote lib [c]) ++ " in host name"

/-- The checks of `unescape(s, mode)`, in its order: a `%` not followed by two hex digits, a
`%XX` a host may not use (only bytes above ASCII and `%25`) or a zone may not use (only what it
could hold as it is, a space, or `%25`), and an ASCII character a host or a zone may not hold. -/
def unescapeCheck (lib : GoLib) (mode : Encoding) : List Char → Except String Unit
  | [] => .ok ()
  | '%' :: rest =>
    match rest with
    | h₁ :: h₂ :: rest' =>
      if !(isHex h₁ && isHex h₂) then .error (escapeError lib ('%' :: rest))
      else if mode = .host && unhex h₁ < 8 && [h₁, h₂] ≠ ['2', '5'] then
        .error (escapeError lib ('%' :: rest))
      else if mode = .zone && [h₁, h₂] ≠ ['2', '5'] && unhex h₁ * 16 + unhex h₂ ≠ 0x20 &&
          shouldEscape (unhex h₁ * 16 + unhex h₂) .host then
        .error (escapeError lib ('%' :: rest))
      else unescapeCheck lib mode rest'
    | _ => .error (escapeError lib ('%' :: rest))
  | c :: rest =>
    if (mode = .host || mode = .zone) && c.toNat < 0x80 && shouldEscape c.toNat mode then
      .error (invalidHostError lib c)
    else unescapeCheck lib mode rest

/-- The bytes `unescape` decodes a text to, once it has passed the checks: `%XX` is the byte
`XX`, and any other character its UTF-8 bytes (a `+` stays one outside a query). -/
def unescapeBytes : List Char → List UInt8
  | '%' :: h₁ :: h₂ :: rest => UInt8.ofNat (unhex h₁ * 16 + unhex h₂) :: unescapeBytes rest
  | c :: rest => String.utf8EncodeChar c ++ unescapeBytes rest
  | [] => []

/-- `escape(s, mode)` of a byte string: a byte that should be escaped as `%XX` in upper-case
hex, any other byte (it is ASCII) as it is. -/
def escapeBytes (mode : Encoding) (bs : List UInt8) : List Char :=
  bs.flatMap fun b =>
    if shouldEscape b.toNat mode then ['%', upperHex (b.toNat / 16), upperHex (b.toNat % 16)]
    else [Char.ofNat b.toNat]

/-- `escape(unescape(s, mode), mode)`: the default encoding of what a text decodes to. -/
def reescape (mode : Encoding) (s : List Char) : List Char := escapeBytes mode (unescapeBytes s)

/-- `validEncoded`: whether a text can stand as written for a part, each character either one
RFC 3986 allows there or one that needs no escape. -/
def validEncoded (s : List Char) (mode : Encoding) : Bool :=
  s.all fun c => "!$&\x27()*+,;=:@[]%".toList.contains c || !shouldEscape c.toNat mode

/-! ### The parser -/

/-- A control byte, which no URL may hold (`stringContainsCTLByte`). -/
def isCTL (c : Char) : Bool := c.toNat < 0x20 || c.toNat = 0x7F

/-- The loop of `getScheme`, with the characters read so far. -/
def getSchemeAux (rawURL : List Char) : List Char → List Char → Except String (List Char × List Char)
  | _, [] => .ok ([], rawURL)
  | scheme, c :: rest =>
    if c.isAlpha then getSchemeAux rawURL (scheme ++ [c]) rest
    else if c.isDigit || c = '+' || c = '-' || c = '.' then
      if scheme = [] then .ok ([], rawURL) else getSchemeAux rawURL (scheme ++ [c]) rest
    else if c = ':' then
      if scheme = [] then .error "missing protocol scheme" else .ok (scheme, rest)
    else .ok ([], rawURL)

/-- `getScheme`: the scheme before the first `:` and the rest, when the text starts with a
letter and holds only letters, digits, `+`, `-` and `.` before that `:`; no scheme otherwise. -/
def getScheme (rawURL : List Char) : Except String (List Char × List Char) :=
  getSchemeAux rawURL [] rawURL

/-- The text before the last `sep` and the text after it, if there is one
(`strings.LastIndex`). -/
def cutLast (sep : Char) (s : List Char) : Option (List Char × List Char) :=
  if sep ∈ s then some (((s.reverse.dropWhile (· ≠ sep)).drop 1).reverse,
    (s.reverse.takeWhile (· ≠ sep)).reverse)
  else none

/-- The text before the first occurrence of `pat` and the text from it on (`strings.Index`). -/
def splitAtFirst (pat : List Char) : List Char → Option (List Char × List Char)
  | [] => if pat = [] then some ([], []) else none
  | c :: rest =>
    if pat.isPrefixOf (c :: rest) then some ([], c :: rest)
    else (splitAtFirst pat rest).map fun p => (c :: p.1, p.2)

/-- `validOptionalPort`: empty, or `:` and digits. -/
def validOptionalPort : List Char → Bool
  | [] => true
  | c :: rest => c = ':' && rest.all Char.isDigit

/-- The error of a port `parseHost` refuses. -/
def invalidPort (lib : GoLib) (colonPort : List Char) : String :=
  "invalid port " ++ String.mk (quote lib colonPort) ++ " after host"

/-- The checks of `parseHost`: a bracketed host needs its `]`, then an optional port, and its
zone (from `%25`) is checked as a zone; any other host's port is checked after its last `:`.
The host is then unescaped as a host. -/
def parseHost (lib : GoLib) (host : List Char) : Except String Unit :=
  if host.head? = some '[' then
    match cutLast ']' host with
    | none => .error "missing \x27]\x27 in host"
    | some (inside, colonPort) =>
      if !validOptionalPort colonPort then .error (invalidPort lib colonPort)
      else
        match splitAtFirst "%25".toList inside with
        | some (host₁, zone) => do
          unescapeCheck lib .host host₁
          unescapeCheck lib .zone zone
          unescapeCheck lib .host (']' :: colonPort)
        | none => unescapeCheck lib .host host
  else
    match cutLast ':' host with
    | some (_, port) =>
      if !validOptionalPort (':' :: port) then .error (invalidPort lib (':' :: port))
      else unescapeCheck lib .host host
    | none => unescapeCheck lib .host host

/-- `url.Userinfo`, as written: a name, and a password if the text had a `:`. -/
structure Userinfo where
  username : List Char
  password : Option (List Char)
  deriving DecidableEq, Repr

/-- `validUserinfo`: the characters RFC 3986 allows in user information, and `@`. -/
def validUserinfo (s : List Char) : Bool :=
  s.all fun r => r.isAlphanum || "-._:~!$&\x27()*+,;=%@".toList.contains r

/-- `parseAuthority`: the user information before the last `@`, and the host after it. -/
def parseAuthority (lib : GoLib) (authority : List Char) :
    Except String (Option Userinfo × List Char) :=
  match cutLast '@' authority with
  | none => (parseHost lib authority).map fun _ => (none, authority)
  | some (userinfo, host) => do
    parseHost lib host
    if !validUserinfo userinfo then throw "net/url: invalid userinfo"
    if ':' ∉ userinfo then
      unescapeCheck lib .userPassword userinfo
      pure (some ⟨userinfo, none⟩, host)
    else
      let username := userinfo.takeWhile (· ≠ ':')
      let password := (userinfo.dropWhile (· ≠ ':')).drop 1
      unescapeCheck lib .userPassword username
      unescapeCheck lib .userPassword password
      pure (some ⟨username, some password⟩, host)

/-- `url.URL`, with what `Parse` sets.  `rootless` is Go's `Opaque`: what follows the scheme
when no `/` does. -/
structure URL where
  scheme : List Char
  rootless : List Char
  user : Option Userinfo
  host : List Char
  omitHost : Bool
  path : List Char
  forceQuery : Bool
  rawQuery : List Char
  fragment : List Char
  deriving DecidableEq, Repr

/-- The query of `parse`: a lone `?` at the end sets `ForceQuery`; otherwise the text is cut at
its first `?`. -/
def splitQuery (rest : List Char) : Bool × List Char × List Char :=
  if rest.getLast? = some '?' ∧ rest.count '?' = 1 then (true, rest.dropLast, [])
  else (false, rest.takeWhile (· ≠ '?'), (rest.dropWhile (· ≠ '?')).drop 1)

/-- The authority of `parse`, after the scheme: read when the rest starts with `//` (and, with
no scheme, not with `///`); otherwise a rest that starts with `/` after a scheme omits the
host. -/
def parseAfterScheme (lib : GoLib) (scheme rest : List Char) (forceQuery : Bool)
    (rawQuery : List Char) : Except String URL :=
  if (scheme ≠ [] ∨ ¬ "///".toList.isPrefixOf rest) ∧ "//".toList.isPrefixOf rest then
    match parseAuthority lib ((rest.drop 2).takeWhile (· ≠ '/')) with
    | .error e => .error e
    | .ok (user, host) =>
      let path := (rest.drop 2).dropWhile (· ≠ '/')
      (unescapeCheck lib .path path).map fun _ =>
        ⟨scheme, [], user, host, false, path, forceQuery, rawQuery, []⟩
  else
    (unescapeCheck lib .path rest).map fun _ =>
      ⟨scheme, [], none, [], scheme ≠ [] ∧ rest.head? = some '/', rest, forceQuery, rawQuery, []⟩

/-- `parse(rawURL, false)`, of the text before any `#`. -/
def parse (lib : GoLib) (rawURL : List Char) : Except String URL :=
  if rawURL.any isCTL then .error "net/url: invalid control character in URL"
  else if rawURL = ['*'] then .ok ⟨[], [], none, [], false, ['*'], false, [], []⟩
  else
    match getScheme rawURL with
    | .error e => .error e
    | .ok (scheme, rest) =>
      let scheme := scheme.map Char.toLower
      let (forceQuery, rest, rawQuery) := splitQuery rest
      if rest.head? ≠ some '/' ∧ scheme ≠ [] then
        .ok ⟨scheme, rest, none, [], false, [], forceQuery, rawQuery, []⟩
      else if rest.head? ≠ some '/' ∧ ':' ∈ rest.takeWhile (· ≠ '/') then
        .error "first path segment in URL cannot contain colon"
      else parseAfterScheme lib scheme rest forceQuery rawQuery

/-- `Error.Error()` of a `*url.Error`: the operation, the URL quoted, and the error. -/
def urlError (lib : GoLib) (op : String) (url : List UInt8) (err : String) : String :=
  op ++ " " ++ String.mk (quoteBytes lib url) ++ ": " ++ err

/-- `url.Parse`: the text is cut at its first `#`; the part before it is parsed, and the
fragment after it checked.  An error is a `*url.Error` naming the text before the `#`, or the
whole text when the fragment is at fault. -/
def parseURL (lib : GoLib) (rawURL : List Char) : Except String URL :=
  let u := rawURL.takeWhile (· ≠ '#')
  let frag := (rawURL.dropWhile (· ≠ '#')).drop 1
  match parse lib u with
  | .error e => .error (urlError lib "parse" (utf8Bytes u) e)
  | .ok url =>
    if frag = [] then .ok url
    else
      match unescapeCheck lib .fragment frag with
      | .error e => .error (urlError lib "parse" (utf8Bytes rawURL) e)
      | .ok () => .ok { url with fragment := frag }

/-! ### Printing a URL -/

/-- `Userinfo.String`. -/
def Userinfo.string (ui : Userinfo) : List Char :=
  reescape .userPassword ui.username ++
    match ui.password with
    | some p => ':' :: reescape .userPassword p
    | none => []

/-- `RawPath`, as `setPath` leaves it: the path as written, unless that is the default
encoding of its bytes. -/
def URL.rawPath (u : URL) : List Char := if reescape .path u.path = u.path then [] else u.path

/-- `EscapedPath`: `RawPath` when it is a valid encoding (it decodes to the path, being what
the path was decoded from); a path of the one byte `*` as it is; the default encoding
otherwise. -/
def URL.escapedPath (u : URL) : List Char :=
  if u.rawPath ≠ [] ∧ validEncoded u.rawPath .path then u.rawPath
  else if unescapeBytes u.path = [0x2A] then ['*']
  else reescape .path u.path

/-- `EscapedFragment`, as `EscapedPath` with `RawFragment`. -/
def URL.escapedFragment (u : URL) : List Char :=
  let raw := if reescape .fragment u.fragment = u.fragment then [] else u.fragment
  if raw ≠ [] ∧ validEncoded raw .fragment then raw else reescape .fragment u.fragment

/-- `URL.String`. -/
def URL.string (u : URL) : List Char :=
  let pre := if u.scheme ≠ [] then u.scheme ++ [':'] else []
  let body :=
    if u.rootless ≠ [] then u.rootless
    else
      let auth :=
        if u.scheme ≠ [] ∨ u.host ≠ [] ∨ u.user.isSome then
          if u.omitHost ∧ u.host = [] ∧ u.user.isNone then []
          else
            (if u.host ≠ [] ∨ u.path ≠ [] ∨ u.user.isSome then ['/', '/'] else []) ++
              (match u.user with
                | some ui => ui.string ++ ['@']
                | none => []) ++
              (if u.host ≠ [] then reescape .host u.host else [])
        else []
      let path := u.escapedPath
      let slash := if path ≠ [] ∧ path.head? ≠ some '/' ∧ u.host ≠ [] then ['/'] else []
      let dot :=
        if pre ++ auth ++ slash = [] ∧ ':' ∈ path.takeWhile (· ≠ '/') then ['.', '/'] else []
      auth ++ slash ++ dot ++ path
  pre ++ body ++ (if u.forceQuery ∨ u.rawQuery ≠ [] then '?' :: u.rawQuery else []) ++
    (if u.fragment ≠ [] then '#' :: u.escapedFragment else [])

/-- `RequestURI`: the path (or `/`), then the query. -/
def URL.requestURI (u : URL) : List Char :=
  let result :=
    if u.rootless = [] then (if u.escapedPath = [] then ['/'] else u.escapedPath)
    else if "//".toList.isPrefixOf u.rootless then u.scheme ++ ':' :: u.rootless
    else u.rootless
  result ++ (if u.forceQuery ∨ u.rawQuery ≠ [] then '?' :: u.rawQuery else [])

/-- What a request for the URL puts on the wire, as one text: the scheme (plain HTTP or TLS),
the host in its default encoding, and the request target. -/
def URL.wireText (u : URL) : String :=
  String.mk (u.scheme ++ "://".toList ++ reescape .host u.host ++ u.requestURI)

/-! ### URLs that need no escape -/

/-- A character RFC 3986 leaves unreserved: an ASCII letter or digit, `-`, `.`, `_` or `~`. -/
def isUnreserved (c : Char) : Bool := isAlnumByte c.toNat || "-_.~".toList.any (·.toNat = c.toNat)

/-- A character a path holds as it is, with no escape: an unreserved one, `/` or `:`. -/
def isPathChar (c : Char) : Bool := isUnreserved c || c = '/' || c = ':'

/-- The query part of a URL text: none when the query is empty. -/
def withQuery (q : List Char) : List Char := if q = [] then [] else '?' :: q

theorem isUnreserved_lt {c : Char} (h : isUnreserved c) : c.toNat < 0x80 := by
  simp only [isUnreserved, isAlnumByte, Bool.or_eq_true, Bool.and_eq_true, decide_eq_true_eq,
    List.any_eq_true] at h
  rcases h with ((h | h) | h) | ⟨d, hd, he⟩
  · omega
  · omega
  · omega
  · rw [← he]; exact (by decide : ∀ d ∈ "-_.~".toList, d.toNat < 0x80) d hd

/-- A character with no place in an unreserved one. -/
theorem isUnreserved_ne {c : Char} (h : isUnreserved c) {d : Char} (hd : isUnreserved d = false) :
    c ≠ d := by
  rintro rfl; simp [hd] at h

theorem shouldEscape_of_isUnreserved {c : Char} (h : isUnreserved c) (mode : Encoding) :
    shouldEscape c.toNat mode = false := by
  unfold isUnreserved at h
  unfold shouldEscape
  by_cases ha : isAlnumByte c.toNat
  · rw [if_pos ha]
  · have hm : ("-_.~".toList.any fun d => d.toNat = c.toNat) = true := by simpa [ha] using h
    rw [if_neg ha]
    split <;> simp [hm]

theorem isPathChar_lt {c : Char} (h : isPathChar c) : c.toNat < 0x80 := by
  simp only [isPathChar, Bool.or_eq_true, decide_eq_true_eq] at h
  rcases h with (h | rfl) | rfl
  · exact isUnreserved_lt h
  all_goals decide

theorem isPathChar_ne {c : Char} (h : isPathChar c) {d : Char} (hd : isPathChar d = false) :
    c ≠ d := by
  rintro rfl; simp [hd] at h

theorem shouldEscape_path_of_isPathChar {c : Char} (h : isPathChar c) :
    shouldEscape c.toNat .path = false := by
  simp only [isPathChar, Bool.or_eq_true, decide_eq_true_eq] at h
  rcases h with (h | rfl) | rfl
  · exact shouldEscape_of_isUnreserved h _
  all_goals decide

theorem isCTL_of_isPathChar {c : Char} (h : isPathChar c) : isCTL c = false := by
  have hu : isUnreserved c = true → isCTL c = false := fun hu => by
    simp only [isUnreserved, isAlnumByte, Bool.or_eq_true, Bool.and_eq_true, decide_eq_true_eq,
      List.any_eq_true] at hu
    simp only [isCTL, Bool.or_eq_false_iff, decide_eq_false_iff_not]
    rcases hu with ((hu | hu) | hu) | ⟨d, hd, he⟩
    · omega
    · omega
    · omega
    · rw [← he]
      exact (by decide : ∀ d ∈ "-_.~".toList, ¬ d.toNat < 0x20 ∧ ¬ d.toNat = 0x7F) d hd
  simp only [isPathChar, Bool.or_eq_true, decide_eq_true_eq] at h
  rcases h with (h | rfl) | rfl
  · exact hu h
  all_goals decide

/-- A character of a path is printable ASCII, and no quote or backslash. -/
theorem isPathChar_plain {c : Char} (h : isPathChar c) : IsPlain c := by
  have hu : isUnreserved c = true → IsPlain c := fun hu => by
    simp only [isUnreserved, isAlnumByte, Bool.or_eq_true, Bool.and_eq_true, decide_eq_true_eq,
      List.any_eq_true] at hu
    rcases hu with ((hu | hu) | hu) | ⟨d, hd, he⟩
    · exact ⟨by omega, by omega, fun e => by subst e; simp at hu, fun e => by subst e; simp at hu⟩
    · exact ⟨by omega, by omega, fun e => by subst e; simp at hu, fun e => by subst e; simp at hu⟩
    · exact ⟨by omega, by omega, fun e => by subst e; simp at hu, fun e => by subst e; simp at hu⟩
    · have hdc : d = c := by rw [← Char.ofNat_toNat d, ← Char.ofNat_toNat c, he]
      exact hdc ▸ (by decide : ∀ d ∈ "-_.~".toList, IsPlain d) d hd
  simp only [isPathChar, Bool.or_eq_true, decide_eq_true_eq] at h
  rcases h with (h | rfl) | rfl
  · exact hu h
  all_goals decide

theorem isCTL_of_plain {c : Char} (h : IsPlain c) : isCTL c = false := by
  have := h.1; have := h.2.1
  simp only [isCTL, Bool.or_eq_false_iff, decide_eq_false_iff_not]
  omega

/-- A text with no `%` passes the checks of every part but a host or a zone. -/
theorem unescapeCheck_of_not_mem (lib : GoLib) {mode : Encoding}
    (hmode : mode ≠ .host ∧ mode ≠ .zone) {s : List Char} (h : '%' ∉ s) :
    unescapeCheck lib mode s = .ok () := by
  induction s with
  | nil => rfl
  | cons c s ih =>
    simp only [List.mem_cons, not_or] at h
    rw [unescapeCheck.eq_4 lib mode c s (Ne.symm h.1)]
    simp only [hmode.1, hmode.2, decide_False, Bool.false_or, Bool.false_and, if_false]
    exact ih h.2

theorem unescapeCheck_path (lib : GoLib) {s : List Char} (h : '%' ∉ s) :
    unescapeCheck lib .path s = .ok () :=
  unescapeCheck_of_not_mem lib ⟨by decide, by decide⟩ h

/-- A host of unreserved characters passes the checks of a host. -/
theorem unescapeCheck_host (lib : GoLib) {s : List Char} (h : ∀ c ∈ s, isUnreserved c) :
    unescapeCheck lib .host s = .ok () := by
  induction s with
  | nil => rfl
  | cons c s ih =>
    simp only [List.forall_mem_cons] at h
    rw [unescapeCheck.eq_4 lib .host c s (isUnreserved_ne h.1 (by decide))]
    simp only [shouldEscape_of_isUnreserved h.1, Bool.and_false, if_false]
    exact ih h.2

/-- A text with no `%` decodes to its UTF-8 bytes. -/
theorem unescapeBytes_of_not_mem {s : List Char} (h : '%' ∉ s) :
    unescapeBytes s = utf8Bytes s := by
  induction s with
  | nil => rfl
  | cons c s ih =>
    simp only [List.mem_cons, not_or] at h
    rw [unescapeBytes.eq_2 c s fun _ _ _ hc _ => h.1 hc.symm, ih h.2]
    rfl

/-- An ASCII text of characters that need no escape is its own default encoding. -/
theorem reescape_of_forall {mode : Encoding} {s : List Char}
    (h : ∀ c ∈ s, c ≠ '%' ∧ c.toNat < 0x80 ∧ shouldEscape c.toNat mode = false) :
    reescape mode s = s := by
  rw [reescape, unescapeBytes_of_not_mem fun hm => (h _ hm).1 rfl,
    utf8Bytes_of_ascii fun c hc => (h c hc).2.1, escapeBytes]
  induction s with
  | nil => rfl
  | cons c s ih =>
    simp only [List.forall_mem_cons] at h
    have hb : (UInt8.ofNat c.toNat).toNat = c.toNat :=
      UInt8.toNat_ofNat_of_lt (by have := h.1.2.1; simp only [UInt8.size]; omega)
    simp only [List.map_cons, List.flatMap_cons, hb, h.1.2.2, Bool.false_eq_true, if_false,
      Char.ofNat_toNat, ih h.2, List.singleton_append]

theorem reescape_host {s : List Char} (h : ∀ c ∈ s, isUnreserved c) : reescape .host s = s :=
  reescape_of_forall fun c hc =>
    ⟨isUnreserved_ne (h c hc) (by decide), isUnreserved_lt (h c hc),
      shouldEscape_of_isUnreserved (h c hc) _⟩

theorem reescape_path {s : List Char} (h : ∀ c ∈ s, isPathChar c) : reescape .path s = s :=
  reescape_of_forall fun c hc =>
    ⟨isPathChar_ne (h c hc) (by decide), isPathChar_lt (h c hc),
      shouldEscape_path_of_isPathChar (h c hc)⟩

theorem getScheme_https (rest : List Char) :
    getScheme ("https:".toList ++ rest) = .ok ("https".toList, rest) := rfl

theorem splitQuery_withQuery {s : List Char} (h : '?' ∉ s) (q : List Char) :
    splitQuery (s ++ withQuery q) = (false, s, q) := by
  by_cases hq : q = []
  · subst hq
    have hcount : ¬ (s.getLast? = some '?' ∧ s.count '?' = 1) := fun hc =>
      h (List.count_pos_iff.mp (by have := hc.2; omega))
    rw [withQuery, if_pos rfl, List.append_nil, splitQuery, if_neg hcount,
      (takeWhile_dropWhile_of_not_mem h).1, (takeWhile_dropWhile_of_not_mem h).2]
    rfl
  · have hcount : ¬ ((s ++ '?' :: q).getLast? = some '?' ∧ (s ++ '?' :: q).count '?' = 1) := by
      rintro ⟨hl, hc⟩
      rw [List.getLast?_append_of_ne_nil _ (List.cons_ne_nil _ _), List.getLast?_cons] at hl
      have hmem : '?' ∈ q := by
        cases hq' : q.getLast? with
        | none => exact absurd (List.getLast?_eq_none_iff.mp hq') hq
        | some d =>
          rw [hq', Option.getD_some, Option.some_inj] at hl
          exact hl ▸ List.mem_of_getLast?_eq_some hq'
      have : 2 ≤ (s ++ '?' :: q).count '?' := by
        rw [List.count_append, List.count_cons_self, List.count_eq_zero.mpr h]
        have := List.count_pos_iff.mpr hmem
        omega
      omega
    rw [withQuery, if_neg hq, splitQuery, if_neg hcount, (takeWhile_dropWhile_append h q).1,
      (takeWhile_dropWhile_append h q).2]
    rfl

theorem parseHost_of_isUnreserved (lib : GoLib) {host : List Char}
    (h : ∀ c ∈ host, isUnreserved c) : parseHost lib host = .ok () := by
  have hbr : host.head? ≠ some '[' := by
    cases host with
    | nil => simp
    | cons c _ => simpa using isUnreserved_ne (h c (List.mem_cons_self _ _)) (by decide)
  have hcolon : cutLast ':' host = none :=
    if_neg fun hm => isUnreserved_ne (h _ hm) (by decide) rfl
  rw [parseHost, if_neg hbr, hcolon]
  exact unescapeCheck_host lib h

theorem parseAuthority_of_isUnreserved (lib : GoLib) {host : List Char}
    (h : ∀ c ∈ host, isUnreserved c) : parseAuthority lib host = .ok (none, host) := by
  have hat : cutLast '@' host = none := if_neg fun hm => isUnreserved_ne (h _ hm) (by decide) rfl
  rw [parseAuthority, hat, parseHost_of_isUnreserved lib h]
  rfl

theorem isPathChar_of_isUnreserved {c : Char} (h : isUnreserved c) : isPathChar c := by
  simp [isPathChar, h]

theorem mem_withQuery {q : List Char} {c : Char} (h : c ∈ withQuery q) : c = '?' ∨ c ∈ q := by
  unfold withQuery at h
  split at h
  · cases h
  · exact List.mem_cons.mp h

theorem isCTL_withQuery {q : List Char} (hq : ∀ c ∈ q, isCTL c = false) :
    ∀ c ∈ withQuery q, isCTL c = false := fun c hc =>
  (mem_withQuery hc).elim (fun h => h ▸ rfl) (hq c)

/-- **A URL `https://host/path?query` whose host and path need no escape parses to its parts**,
kept as written; an empty query is no query. -/
theorem parse_https (lib : GoLib) {host path : List Char} (hhost : ∀ c ∈ host, isUnreserved c)
    (hpath : ∀ c ∈ path, isPathChar c) {q : List Char} (hq : ∀ c ∈ q, isCTL c = false) :
    parse lib ("https://".toList ++ host ++ '/' :: path ++ withQuery q) =
      .ok ⟨"https".toList, [], none, host, false, '/' :: path, false, q, []⟩ := by
  have hslash : '/' ∉ host := fun hm => isUnreserved_ne (hhost _ hm) (by decide) rfl
  have hrest : '?' ∉ '/' :: '/' :: host ++ '/' :: path := by
    simp only [List.mem_cons, List.mem_append, not_or]
    exact ⟨⟨by decide, by decide, fun hm => isUnreserved_ne (hhost _ hm) (by decide) rfl⟩,
      by decide, fun hm => isPathChar_ne (hpath _ hm) (by decide) rfl⟩
  have hctl : ("https://".toList ++ host ++ '/' :: path ++ withQuery q).any isCTL = false := by
    simp only [List.any_eq_false, List.mem_append, List.mem_cons]
    rintro c (((hc | hc) | hc | hc) | hc) hct
    · revert hc hct; revert c; decide
    · simp [isCTL_of_isPathChar (isPathChar_of_isUnreserved (hhost c hc))] at hct
    · subst hc; revert hct; decide
    · simp [isCTL_of_isPathChar (hpath c hc)] at hct
    · simp [isCTL_withQuery hq c hc] at hct
  have hstar : "https://".toList ++ host ++ '/' :: path ++ withQuery q ≠ ['*'] := by simp
  have hpct : '%' ∉ '/' :: path := by
    simp only [List.mem_cons, not_or]
    exact ⟨by decide, fun hm => isPathChar_ne (hpath _ hm) (by decide) rfl⟩
  have htext : "https://".toList ++ host ++ '/' :: path ++ withQuery q =
      "https:".toList ++ (('/' :: '/' :: host ++ '/' :: path) ++ withQuery q) := by
    simp only [List.append_assoc]; rfl
  have hauth := takeWhile_dropWhile_append hslash path
  have hcond : ("https".toList.map Char.toLower ≠ [] ∨
      ¬ "///".toList.isPrefixOf ('/' :: '/' :: host ++ '/' :: path)) ∧
      "//".toList.isPrefixOf ('/' :: '/' :: host ++ '/' :: path) := ⟨.inl (by decide), by simp [List.isPrefixOf]⟩
  rw [parse, if_neg (by rw [hctl]; decide), if_neg hstar, htext, getScheme_https]
  simp only [splitQuery_withQuery hrest]
  rw [if_neg fun h => h.1 rfl, if_neg fun h => h.1 rfl, parseAfterScheme, if_pos hcond]
  simp only [List.cons_append, List.drop_succ_cons, List.drop_zero, hauth.1, hauth.2,
    parseAuthority_of_isUnreserved lib hhost, unescapeCheck_path lib hpct]
  rfl

/-- The URL of `https://host/path?query`. -/
def httpsURL (host path q : List Char) : URL :=
  ⟨"https".toList, [], none, host, false, '/' :: path, false, q, []⟩

/-- A URL text with no `#` is parsed whole. -/
theorem parseURL_of_not_mem (lib : GoLib) {rawURL : List Char} (h : '#' ∉ rawURL) :
    parseURL lib rawURL = (parse lib rawURL).mapError
      fun e => urlError lib "parse" (utf8Bytes rawURL) e := by
  rw [parseURL]
  simp only [(takeWhile_dropWhile_of_not_mem h).1, (takeWhile_dropWhile_of_not_mem h).2,
    List.drop_nil, if_true]
  cases parse lib rawURL <;> rfl

/-- A URL text `pre#frag`, with no `#` in `pre` and a fragment that passes its checks, parses
as `pre` does, with the fragment set; an error of either names `pre`. -/
theorem parseURL_fragment (lib : GoLib) {pre frag : List Char} (hpre : '#' ∉ pre)
    (hfrag : frag ≠ []) (hcheck : unescapeCheck lib .fragment frag = .ok ()) :
    parseURL lib (pre ++ '#' :: frag) =
      (parseURL lib pre).map fun u => { u with fragment := frag } := by
  rw [parseURL_of_not_mem lib hpre, parseURL]
  simp only [(takeWhile_dropWhile_append hpre frag).1, (takeWhile_dropWhile_append hpre frag).2,
    List.drop_succ_cons, List.drop_zero, if_neg hfrag, hcheck]
  cases parse lib pre <;> rfl

theorem not_mem_https {host path q : List Char} (hhost : ∀ c ∈ host, isUnreserved c)
    (hpath : ∀ c ∈ path, isPathChar c) {d : Char} (hd : isPathChar d = false) (hq : d ∉ q)
    (hd' : d ≠ '?') : d ∉ "https://".toList ++ host ++ '/' :: path ++ withQuery q := by
  have hu : isUnreserved d = false := by
    cases h : isUnreserved d
    · rfl
    · simp [isPathChar, h] at hd
  simp only [List.mem_append, List.mem_cons, not_or]
  refine ⟨⟨⟨fun h => ?_, fun h => isUnreserved_ne (hhost _ h) hu rfl⟩, fun h => ?_,
    fun h => isPathChar_ne (hpath _ h) hd rfl⟩, fun h => ?_⟩
  · exact absurd ((by decide : ∀ e ∈ "https://".toList, isPathChar e) d h) (by simp [hd])
  · subst h; revert hd; decide
  · exact (mem_withQuery h).elim hd' hq

/-- **`url.Parse` of `https://host/path?query`**, with a host and a path that need no escape
and a query with no `#` or control character: the URL of the parts as written. -/
theorem parseURL_https (lib : GoLib) {host path q : List Char} (hhost : ∀ c ∈ host, isUnreserved c)
    (hpath : ∀ c ∈ path, isPathChar c) (hq : ∀ c ∈ q, c ≠ '#' ∧ isCTL c = false) :
    parseURL lib ("https://".toList ++ host ++ '/' :: path ++ withQuery q) =
      .ok (httpsURL host path q) := by
  rw [parseURL_of_not_mem lib (not_mem_https hhost hpath (by decide) (fun h => (hq _ h).1 rfl)
    (by decide)), parse_https lib hhost hpath fun c hc => (hq c hc).2]
  rfl

/-- The path of a URL that needs no escape is printed as written. -/
theorem escapedPath_of_isPathChar {u : URL} {path : List Char} (hu : u.path = '/' :: path)
    (hpath : ∀ c ∈ path, isPathChar c) : u.escapedPath = '/' :: path := by
  have hall : ∀ c ∈ '/' :: path, isPathChar c := by
    simpa using ⟨by decide, hpath⟩
  have hre : reescape .path u.path = u.path := by rw [hu]; exact reescape_path hall
  have hstar : unescapeBytes u.path ≠ [0x2A] := by
    rw [hu, unescapeBytes_of_not_mem fun h => isPathChar_ne (hall _ h) (by decide) rfl,
      utf8Bytes, List.flatMap_cons, utf8EncodeChar_of_lt (by decide)]
    simp
  rw [URL.escapedPath, URL.rawPath, if_pos hre, if_neg fun h => h.1 rfl, if_neg hstar, hre, hu]

theorem query_withQuery (q : List Char) :
    (if false = true ∨ q ≠ [] then '?' :: q else []) = withQuery q := by
  by_cases hq : q = [] <;> simp [withQuery, hq]

/-- **The wire form of `https://host/path?query` is the text again.** -/
theorem wireText_https {host path : List Char} (hhost : ∀ c ∈ host, isUnreserved c)
    (hpath : ∀ c ∈ path, isPathChar c) (q : List Char) :
    (httpsURL host path q).wireText =
      String.mk ("https://".toList ++ host ++ '/' :: path ++ withQuery q) := by
  have hpath' := escapedPath_of_isPathChar (u := httpsURL host path q) rfl hpath
  simp only [URL.wireText, URL.requestURI, httpsURL, reescape_host hhost, if_true] at hpath' ⊢
  rw [hpath', if_neg (List.cons_ne_nil _ _), query_withQuery]
  simp only [List.append_assoc]
  rfl

/-- **`url.Parse` of a path**: a text `/path?query` that does not start with `//` is a URL with
no scheme and no host, printed as written. -/
theorem parseURL_path (lib : GoLib) {path q : List Char} (hpath : ∀ c ∈ path, isPathChar c)
    (hhead : path.head? ≠ some '/') (hq : ∀ c ∈ q, c ≠ '#' ∧ isCTL c = false) :
    parseURL lib ('/' :: path ++ withQuery q) =
      .ok ⟨[], [], none, [], false, '/' :: path, false, q, []⟩ := by
  have hpathNot : ∀ {d : Char}, isPathChar d = false → d ∉ '/' :: path := fun {d} hd h => by
    rcases List.mem_cons.mp h with rfl | h
    · revert hd; decide
    · exact isPathChar_ne (hpath _ h) hd rfl
  have hnot : ∀ {d : Char}, isPathChar d = false → d ∉ q → d ≠ '?' →
      d ∉ '/' :: path ++ withQuery q := fun hd hdq hd' h =>
    (List.mem_append.mp h).elim (hpathNot hd) fun h => (mem_withQuery h).elim hd' hdq
  have hctl : ('/' :: path ++ withQuery q).any isCTL = false := by
    simp only [List.any_eq_false, List.mem_append, List.mem_cons]
    rintro c ((rfl | hc) | hc) hct
    · revert hct; decide
    · simp [isCTL_of_isPathChar (hpath c hc)] at hct
    · simp [isCTL_withQuery (fun c hc => (hq c hc).2) c hc] at hct
  have hscheme : getScheme ('/' :: path ++ withQuery q) = .ok ([], '/' :: path ++ withQuery q) :=
    rfl
  have hslash : ¬ "//".toList.isPrefixOf ('/' :: path) := by
    cases path with
    | nil => simp [List.isPrefixOf]
    | cons c path =>
      have hc : c ≠ '/' := fun h => hhead (by simp [h])
      simp [List.isPrefixOf, Ne.symm hc]
  rw [parseURL_of_not_mem lib (hnot (by decide) (fun h => (hq _ h).1 rfl) (by decide)), parse,
    if_neg (by rw [hctl]; decide), if_neg (by simp), hscheme]
  simp only [splitQuery_withQuery (hpathNot (by decide))]
  rw [if_neg fun h => h.2 rfl, if_neg fun h => h.1 rfl, parseAfterScheme,
    if_neg fun h => hslash h.2, unescapeCheck_path lib (hpathNot (by decide))]
  rfl

/-- A URL of a path alone is printed as written. -/
theorem string_path {path : List Char} (hpath : ∀ c ∈ path, isPathChar c) (q : List Char) :
    URL.string ⟨[], [], none, [], false, '/' :: path, false, q, []⟩ = '/' :: path ++ withQuery q := by
  have hp := escapedPath_of_isPathChar (u := ⟨[], [], none, [], false, '/' :: path, false, q, []⟩)
    rfl hpath
  simp only [URL.string, ne_eq, not_true_eq_false, if_false, false_or, Option.isSome_none,
    Bool.false_eq_true, or_false, hp, List.head?_cons, and_false, List.nil_append]
  by_cases hq : q = [] <;> simp [List.takeWhile_cons, withQuery, hq]

end Kro.Go.Url
