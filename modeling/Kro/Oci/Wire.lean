import Kro.Go.Url

/-!
# The OCI wire of the registry commands

`kro publish` pushes a package to an OCI registry and `kro install` pulls it back, over the
HTTP API of the OCI distribution specification.  This module holds what the two exchange: the
requests with their headers and bodies, the responses, the manifest that names a package's
blobs by digest, and what the commands take from libraries: base64, SHA-256, and the JSON
decoding of a manifest.

Every request of the commands is made the same way, a `Call`: `http.NewRequest` of a method and
a URL text, the headers set on it, `client.Do`, and a check of the status.  `http.NewRequest`
parses the text with `url.Parse` (`Kro.Go.Url`), and `client.Do` refuses, before anything is
sent, a URL whose scheme is not HTTP or which has no host, and a header value with a control
character; its errors are `*url.Error`s naming the method and the URL.  What the transport does
past those checks (the connection, TLS, the writing of the request, redirects) is the registry's
side, the `Server`: it sees the requests as they go on the wire, the URL as scheme, host and
request target.  `Call.run_of_wellFormed` says what a call to a URL `https://host/path?query`
that needs no escape does: it sends its URL text as it is.

A body is the value it was sent as, a blob of bytes or a manifest; the JSON text of a manifest
is left out.  What the code needs from `encoding/json` is that the fields it decodes from a
manifest body are those of the manifest sent, and the laws of `Codec` say so.  `%x` prints a
SHA-256 sum in lower-case hex digits, and `Codec` carries that too.

Both clients split a repository `registry/name` the same way, with `splitRepository`.
-/

namespace Kro.Oci

open Kro.Go Kro.Go.Url

/-- A digit `%x` prints. -/
def isLowerHex (c : Char) : Bool := c.isDigit || ('a' ≤ c && c ≤ 'f')

theorem isLowerHex_range {c : Char} (h : isLowerHex c) :
    (0x30 ≤ c.toNat ∧ c.toNat ≤ 0x39) ∨ (0x61 ≤ c.toNat ∧ c.toNat ≤ 0x66) := by
  simp only [isLowerHex, Char.isDigit, Bool.or_eq_true, Bool.and_eq_true, decide_eq_true_eq] at h
  exact h.imp (fun h => ⟨h.1, h.2⟩) fun h => ⟨h.1, h.2⟩

/-- An OCI descriptor: what a manifest says of one blob. -/
structure Descriptor where
  mediaType : String
  size : Nat
  digest : String
  deriving Repr, DecidableEq

/-- An OCI image manifest, with the fields the commands set. -/
structure Manifest where
  schemaVersion : Nat
  mediaType : String
  config : Descriptor
  layers : List Descriptor
  deriving Repr, DecidableEq

/-- The body of a request or a response. -/
inductive Body where
  | empty
  | blob (content : List UInt8)
  | manifest (m : Manifest)
  deriving Repr, DecidableEq

/-- A request as the transport sends it: method, URL (`URL.wireText`), headers in the order
they are set, body. -/
structure Request where
  method : String
  url : String
  headers : List (String × String)
  body : Body
  deriving Repr, DecidableEq

/-- The parts of a response the clients read: status, `Location` header, body. -/
structure Response where
  statusCode : Nat
  status : String
  location : String
  body : Body
  deriving Repr, DecidableEq

/-- A registry server: its answer to the last of the requests it has received, or a transport
error. -/
def Server : Type := List Request → Except String Response

/-- What the commands take from libraries. -/
structure Codec where
  /-- `base64.StdEncoding.EncodeToString` of a string's bytes. -/
  base64 : String → String
  /-- The SHA-256 sum of the bytes, as `%x` prints it. -/
  sha256Hex : List UInt8 → String
  sha256Hex_hex : ∀ b, ∀ c ∈ (sha256Hex b).toList, isLowerHex c = true
  /-- The bytes of a body, which `tar.NewReader(resp.Body)` reads. -/
  bodyBytes : Body → List UInt8
  bodyBytes_blob : ∀ content, bodyBytes (.blob content) = content
  /-- `string(body)`, in error messages. -/
  text : Body → String
  /-- Decoding a body into `struct { Layers []struct { Digest } }`. -/
  decodeLayers : Body → Except String (List String)
  decodeLayers_manifest : ∀ m, decodeLayers (.manifest m) = .ok (m.layers.map (·.digest))
  /-- Decoding a body into `struct { Config struct { Digest } }`. -/
  decodeConfig : Body → Except String String
  decodeConfig_manifest : ∀ m, decodeConfig (.manifest m) = .ok m.config.digest

/-- The digest of some bytes: `sha256:` and the hex digits. -/
def digestOf (codec : Codec) (content : List UInt8) : String := "sha256:" ++ codec.sha256Hex content

/-- The registry host of a repository and the repository name under it:
`strings.Split(repository, "/")[0]` and `strings.Join(parts[1:], "/")`. -/
def splitRepository (repository : String) : String × String :=
  let parts := stringsSplit '/' repository.toList
  (String.mk (parts.headD []), String.mk (List.intercalate ['/'] parts.tail))

/-! ### `http.NewRequest` and `client.Do` -/

/-- A character of an HTTP token (`httpguts.IsTokenRune`). -/
def isTokenChar (c : Char) : Bool := c.isAlphanum || "!#$%&\x27*+-.^_\x60|~".toList.contains c

/-- `validMethod`: a non-empty token. -/
def validMethod (method : String) : Bool := method ≠ "" && method.toList.all isTokenChar

/-- `hasPort`: a `:` after the last `]`. -/
def hasPort (host : List Char) : Bool :=
  match host.reverse.find? fun c => c = ':' || c = ']' with
  | some ':' => true
  | _ => false

/-- `removeEmptyPort`: a host ending in a `:` with no port loses it.  On the host as written:
a `:` or `]` that a `%XX` decodes to lies in a zone, before the last `]`. -/
def removeEmptyPort (host : List Char) : List Char :=
  if hasPort host ∧ host.getLast? = some ':' then host.dropLast else host

/-- `http.NewRequest`: an empty method is `GET`; the method must be a token, the URL must parse,
and the host loses an empty port. -/
def newRequest (lib : GoLib) (method url : String) : Except GoError (String × URL) :=
  let method := if method = "" then "GET" else method
  if !validMethod method then
    .error (.error ("net/http: invalid method " ++ String.mk (quote lib method.toList)))
  else
    match parseURL lib url.toList with
    | .error e => .error (.error e)
    | .ok u => .ok (method, { u with host := removeEmptyPort u.host })

/-- `httpguts.ValidHeaderFieldName`: a non-empty token. -/
def validHeaderFieldName (k : String) : Bool := k ≠ "" && k.toList.all isTokenChar

/-- `httpguts.ValidHeaderFieldValue`: no control byte but a tab. -/
def validHeaderFieldValue (v : String) : Bool := v.toList.all fun c => !isCTL c || c = '\t'

theorem validHeaderFieldValue_of_forall {v : String} (h : ∀ c ∈ v.toList, isCTL c = false) :
    validHeaderFieldValue v := by
  simp only [validHeaderFieldValue, List.all_eq_true]
  intro c hc
  simp [h c hc]

theorem validHeaderFieldValue_append {a b : String} (ha : validHeaderFieldValue a)
    (hb : validHeaderFieldValue b) : validHeaderFieldValue (a ++ b) := by
  simp only [validHeaderFieldValue, List.all_eq_true] at ha hb ⊢
  intro c hc
  simp only [String.toList, String.data_append, List.mem_append] at hc
  exact hc.elim (ha c) (hb c)

/-- `validateHeaders`: the first header, in the order the map is visited, whose name or value is
not valid.  The value is not named, since it may be secret. -/
def validateHeaders (lib : GoLib) : List (String × String) → Option String
  | [] => none
  | (k, v) :: hs =>
    if !validHeaderFieldName k then some ("field name " ++ String.mk (quote lib k.toList))
    else if !validHeaderFieldValue v then some ("field value for " ++ String.mk (quote lib k.toList))
    else validateHeaders lib hs

/-- `urlErrorOp`: the method with all but its first letter in lower case. -/
def urlErrorOp (method : String) : String :=
  match method.toList with
  | [] => ""
  | c :: rest => String.mk (c :: rest.map Char.toLower)

/-- `stripPassword`: the URL as `String` prints it, with a password replaced by `***` and the
user name decoded. -/
def stripPassword (u : URL) : List UInt8 :=
  match u.user with
  | some ui =>
    if ui.password.isSome then
      replaceFirst (utf8Bytes (ui.string ++ ['@']))
        (unescapeBytes ui.username ++ utf8Bytes ":***@".toList) (utf8Bytes u.string)
    else utf8Bytes u.string
  | none => utf8Bytes u.string

/-- The checks `client.Do` makes before its transport sends anything (`send`, then
`Transport.roundTrip`): on an HTTP URL the headers, then the scheme, the method and the host.
The request that goes on the wire, or the error. -/
def prepare (lib : GoLib) (method : String) (u : URL) (headers : List (String × String))
    (body : Body) : Except String Request :=
  let isHTTP := u.scheme = "http".toList ∨ u.scheme = "https".toList
  match (if isHTTP then validateHeaders lib headers else none) with
  | some err => .error ("net/http: invalid header " ++ err)
  | none =>
    if ¬ isHTTP then .error ("unsupported protocol scheme " ++ String.mk (quote lib u.scheme))
    else if method ≠ "" ∧ !validMethod method then
      .error ("net/http: invalid method " ++ String.mk (quote lib method.toList))
    else if u.host = [] then .error "http: no Host in request URL"
    else .ok ⟨method, u.wireText, headers, body⟩

/-- A request of the commands: a method and a URL text for `http.NewRequest`, the headers set on
the request and its body, and the status the command expects, with the text of its error
otherwise. -/
structure Call where
  method : String
  url : String
  headers : List (String × String)
  body : Body
  code : Nat
  what : String

/-- The status check after `client.Do`: another status is an error with the response's status
line and body. -/
def expectStatus (codec : Codec) (resp : Response) (code : Nat) (what : String) :
    Except GoError Response :=
  if resp.statusCode ≠ code then fail (what ++ ": " ++ resp.status ++ ": " ++ codec.text resp.body)
  else .ok resp

/-- A call, with the transport's answer to the request it sends: the request, if the client's
checks let one go, and the outcome.  An error of `client.Do` is a `*url.Error` of the method and
the URL. -/
def Call.run (lib : GoLib) (codec : Codec) (c : Call) (answer : Request → Except String Response) :
    Option Request × Except GoError Response :=
  match newRequest lib c.method c.url with
  | .error e => (none, .error e)
  | .ok (method, u) =>
    match prepare lib method u c.headers c.body with
    | .error err => (none, .error (.error (urlError lib (urlErrorOp method) (stripPassword u) err)))
    | .ok req =>
      (some req,
        match answer req with
        | .error err => .error (.error (urlError lib (urlErrorOp method) (stripPassword u) err))
        | .ok resp => expectStatus codec resp c.code c.what)

/-- A call against a registry that answers the requests sent so far: the requests sent after it,
and its outcome. -/
def Call.send (lib : GoLib) (codec : Codec) (srv : Server) (sent : List Request) (c : Call) :
    List Request × Except GoError Response :=
  let r := c.run lib codec fun req => srv (sent ++ [req])
  (sent ++ r.1.toList, r.2)

/-- A request the client's checks let go is the call's, on the URL as it goes on the wire. -/
theorem prepare_eq_ok {lib : GoLib} {method : String} {u : URL} {headers : List (String × String)}
    {body : Body} {req : Request} (h : prepare lib method u headers body = .ok req) :
    req = ⟨method, u.wireText, headers, body⟩ := by
  unfold prepare at h
  dsimp only at h
  split at h
  · cases h
  · split_ifs at h
    cases h
    rfl

/-- `http.NewRequest` of a URL text `pre#frag` makes the request of `pre`, with the fragment
set. -/
theorem newRequest_fragment (lib : GoLib) (method : String) {pre frag : String}
    (hpre : '#' ∉ pre.toList) (hfrag : frag ≠ "" ∧ '%' ∉ frag.toList) :
    newRequest lib method (pre ++ "#" ++ frag) =
      (newRequest lib method pre).map fun r => (r.1, { r.2 with fragment := frag.toList }) := by
  have hs : (pre ++ "#" ++ frag).toList = pre.toList ++ '#' :: frag.toList := by
    simp only [String.toList, String.data_append, List.append_assoc]
    rfl
  have hne : frag.toList ≠ [] := fun h => hfrag.1 (String.ext h)
  simp only [newRequest, hs, parseURL_fragment lib hpre hne
    (unescapeCheck_of_not_mem lib ⟨by decide, by decide⟩ hfrag.2)]
  generalize (if method = "" then "GET" else method) = m
  cases validMethod m
  · rfl
  · cases parseURL lib pre.toList <;> rfl

/-- `client.Do`'s checks do not read the fragment. -/
theorem prepare_fragment (lib : GoLib) (method : String) (u : URL) (frag : List Char)
    (headers : List (String × String)) (body : Body) :
    prepare lib method { u with fragment := frag } headers body = prepare lib method u headers body :=
  rfl

/-- A call to `pre#frag` sends what the call to `pre` sends. -/
theorem Call.run_fragment {c : Call} {frag : String} (hurl : '#' ∉ c.url.toList)
    (hfrag : frag ≠ "" ∧ '%' ∉ frag.toList) (lib : GoLib) (codec : Codec)
    (answer : Request → Except String Response) :
    ({ c with url := c.url ++ "#" ++ frag }.run lib codec answer).1 = (c.run lib codec answer).1 := by
  simp only [Call.run, newRequest_fragment lib c.method hurl hfrag]
  cases newRequest lib c.method c.url with
  | error e => rfl
  | ok r =>
    simp only [Except.map, prepare_fragment]
    cases prepare lib r.1 r.2 c.headers c.body <;> rfl

/-- A request a call sends after others is one of them, or has the call's headers and body. -/
theorem Call.send_mem {lib : GoLib} {codec : Codec} {srv : Server} {sent : List Request} {c : Call}
    {req : Request} (h : req ∈ (c.send lib codec srv sent).1) :
    req ∈ sent ∨ req.headers = c.headers ∧ req.body = c.body := by
  simp only [Call.send, List.mem_append] at h
  refine h.imp id fun h => ?_
  unfold Call.run at h
  split at h
  · cases h
  · split at h
    · cases h
    · rename_i hp
      obtain rfl := List.mem_singleton.mp h
      rw [prepare_eq_ok hp]
      exact ⟨rfl, rfl⟩

theorem expectStatus_eq_ok {codec : Codec} {resp r : Response} {code : Nat} {what : String} :
    expectStatus codec resp code what = .ok r ↔ resp = r ∧ resp.statusCode = code := by
  unfold expectStatus
  by_cases hc : resp.statusCode = code
  · simp only [hc, ne_eq, not_true_eq_false, if_false, Except.ok.injEq, and_true]
  · simp [hc, fail]

theorem expectStatus_of_code {codec : Codec} {resp : Response} {code : Nat} (h : resp.statusCode = code)
    (what : String) : expectStatus codec resp code what = .ok resp :=
  expectStatus_eq_ok.mpr ⟨rfl, h⟩

/-! ### Calls to URLs that need no escape -/

/-- A call to `https://host/path?query` with a host and a path that need no escape, a query with
no `#` or control character, and valid method and headers: one that `http.NewRequest` and the
checks of `client.Do` let go as it is. -/
structure Call.WellFormed (c : Call) : Prop where
  url : ∃ host path q, c.url.toList = "https://".toList ++ host ++ '/' :: path ++ withQuery q ∧
    host ≠ [] ∧ (∀ c ∈ host, isUnreserved c) ∧ (∀ c ∈ path, isPathChar c) ∧
    ∀ c ∈ q, c ≠ '#' ∧ isCTL c = false
  method : validMethod c.method
  headers : ∀ h ∈ c.headers, validHeaderFieldName h.1 ∧ validHeaderFieldValue h.2

/-- The request a call sends as it is. -/
def Call.request (c : Call) : Request := ⟨c.method, c.url, c.headers, c.body⟩

theorem validateHeaders_of_forall (lib : GoLib) {hs : List (String × String)}
    (h : ∀ h ∈ hs, validHeaderFieldName h.1 ∧ validHeaderFieldValue h.2) :
    validateHeaders lib hs = none := by
  induction hs with
  | nil => rfl
  | cons kv hs ih =>
    simp only [List.forall_mem_cons] at h
    simp only [validateHeaders, h.1.1, h.1.2, Bool.not_true, Bool.false_eq_true, if_false]
    exact ih h.2

theorem removeEmptyPort_of_not_mem {host : List Char} (h : ':' ∉ host) :
    removeEmptyPort host = host := by
  have hlast : host.getLast? ≠ some ':' := fun hl => h (List.mem_of_getLast?_eq_some hl)
  simp [removeEmptyPort, hlast]

theorem string_https {host path : List Char} (hhost : ∀ c ∈ host, isUnreserved c)
    (hpath : ∀ c ∈ path, isPathChar c) (hne : host ≠ []) (q : List Char) :
    (httpsURL host path q).string = "https://".toList ++ host ++ '/' :: path ++ withQuery q := by
  have hp := escapedPath_of_isPathChar (u := httpsURL host path q) rfl hpath
  rw [URL.string, hp]
  simp [httpsURL, reescape_host hhost, hne, withQuery]

/-- **A well-formed call sends its URL text as it is**, and ends as the transport's answer says:
a transport error comes back as the `*url.Error` of the method and the URL, a response is checked
for the status the call expects. -/
theorem Call.run_of_wellFormed {c : Call} (hc : c.WellFormed) (lib : GoLib) (codec : Codec)
    (answer : Request → Except String Response) :
    c.run lib codec answer = (some c.request,
      match answer c.request with
      | .error err => .error (.error (urlError lib (urlErrorOp c.method) (utf8Bytes c.url.toList) err))
      | .ok resp => expectStatus codec resp c.code c.what) := by
  obtain ⟨⟨host, path, q, hurl, hne, hhost, hpath, hq⟩, hmethod, hheaders⟩ := hc
  have hcolon : ':' ∉ host := fun hm => isUnreserved_ne (hhost _ hm) (by decide) rfl
  have hm : c.method ≠ "" := fun he => by simp [validMethod, he] at hmethod
  have hwire : (httpsURL host path q).wireText = c.url := by
    rw [wireText_https hhost hpath, ← hurl]; rfl
  have hnew : newRequest lib c.method c.url = .ok (c.method, httpsURL host path q) := by
    simp only [newRequest, if_neg hm, hmethod, Bool.not_true, Bool.false_eq_true, if_false, hurl,
      parseURL_https lib hhost hpath hq]
    simp only [httpsURL, removeEmptyPort_of_not_mem hcolon]
  have hprep : prepare lib c.method (httpsURL host path q) c.headers c.body = .ok c.request := by
    have hs : (httpsURL host path q).scheme = "https".toList := rfl
    have hh : (httpsURL host path q).host = host := rfl
    simp only [prepare, hs, hh, validateHeaders_of_forall lib hheaders, hmethod, or_true,
      if_true, not_true_eq_false, if_false, Bool.not_true, Bool.false_eq_true, and_false, hne,
      hwire]
    rfl
  have hstrip : stripPassword (httpsURL host path q) = utf8Bytes c.url.toList := by
    show utf8Bytes (httpsURL host path q).string = _
    rw [string_https hhost hpath hne q, hurl]
  rw [Call.run, hnew]
  simp only [hprep, hstrip]

theorem Call.send_of_wellFormed {c : Call} (hc : c.WellFormed) (lib : GoLib) (codec : Codec)
    (srv : Server) (sent : List Request) :
    c.send lib codec srv sent = (sent ++ [c.request],
      match srv (sent ++ [c.request]) with
      | .error err => .error (.error (urlError lib (urlErrorOp c.method) (utf8Bytes c.url.toList) err))
      | .ok resp => expectStatus codec resp c.code c.what) := by
  rw [Call.send, Call.run_of_wellFormed hc]
  rfl

/-- A well-formed call that the registry answers with the status it expects. -/
theorem Call.send_of_ok {c : Call} (hc : c.WellFormed) (lib : GoLib) (codec : Codec) (srv : Server)
    (sent : List Request) {resp : Response} (hsrv : srv (sent ++ [c.request]) = .ok resp)
    (hcode : resp.statusCode = c.code) :
    c.send lib codec srv sent = (sent ++ [c.request], .ok resp) := by
  rw [Call.send_of_wellFormed hc, hsrv]
  exact Prod.ext rfl (expectStatus_of_code hcode c.what)

/-- A repository `host/name`, with no `/` in the host, splits into the two. -/
theorem splitRepository_append {host : String} (h : '/' ∉ host.toList) (name : String) :
    splitRepository (host ++ "/" ++ name) = (host, name) := by
  have hs : (host ++ "/" ++ name).toList = host.toList ++ '/' :: name.toList := by
    simp [String.toList]
  simp only [splitRepository, hs, stringsSplit_append_cons h, List.headD_cons, List.tail_cons]
  exact Prod.ext rfl (congrArg String.mk (List.intercalate_splitOn name.toList '/'))

/-- A digest has no character outside `sha256:` and the hex digits. -/
theorem mem_digestOf {codec : Codec} {content : List UInt8} {c : Char}
    (h : c ∈ (digestOf codec content).toList) : c ∈ "sha256:".toList ∨ isLowerHex c = true := by
  simp only [digestOf, String.toList, String.data_append, List.mem_append] at h
  exact h.imp id (codec.sha256Hex_hex content c)

/-- A character of a digest is printable ASCII with no quote or backslash, and one a path holds
as it is. -/
theorem digestOf_char {codec : Codec} {content : List UInt8} {c : Char}
    (h : c ∈ (digestOf codec content).toList) : IsPlain c ∧ isPathChar c := by
  rcases mem_digestOf h with h | h
  · exact (by decide : ∀ c ∈ "sha256:".toList, IsPlain c ∧ isPathChar c) c h
  · have hr := isLowerHex_range h
    have ha : isAlnumByte c.toNat := by
      simp only [isAlnumByte, Bool.or_eq_true, Bool.and_eq_true, decide_eq_true_eq]; omega
    refine ⟨⟨by omega, by omega, fun e => ?_, fun e => ?_⟩, by simp [isPathChar, isUnreserved, ha]⟩
    all_goals subst e; revert hr; decide

/-- The text of a `*url.Error` on a URL of printable ASCII with no quote or backslash. -/
theorem urlError_plain (lib : GoLib) (op : String) {s : List Char} (hs : ∀ c ∈ s, IsPlain c)
    (err : String) : urlError lib op (utf8Bytes s) err = op ++ " \"" ++ String.mk s ++ "\": " ++ err := by
  rw [urlError, quoteBytes_utf8Bytes lib fun c hc => by have := (hs c hc).2.1; omega,
    quote_plain lib hs]
  apply String.ext
  simp only [String.data_append, List.append_assoc]
  rfl

/-- A codec for the samples: the text itself for base64, a fixed digest, and the manifest
itself for its JSON. -/
def sampleCodec : Codec where
  base64 := id
  sha256Hex := fun _ => "0f"
  sha256Hex_hex := fun _ => (by decide : ∀ c ∈ "0f".toList, isLowerHex c = true)
  bodyBytes := fun | .blob content => content | _ => []
  bodyBytes_blob := fun _ => rfl
  text := fun _ => ""
  decodeLayers := fun | .manifest m => .ok (m.layers.map (·.digest)) | _ => .error "EOF"
  decodeLayers_manifest := fun _ => rfl
  decodeConfig := fun | .manifest m => .ok m.config.digest | _ => .error "EOF"
  decodeConfig_manifest := fun _ => rfl

end Kro.Oci
