import Kro.Oci.Wire
import Mathlib.Logic.Function.Basic

/-!
# A registry, as the commands expect one to behave

This module is not code of the repository: it is the other side of the protocol, a registry
that implements the part of the OCI distribution API that `kro publish` and `kro install`
call, so that the two commands can be run against one and their agreement stated.

The registry serves one host and accepts one credential.  It routes a URL
`https://host/v2/<name>/...` by its last path components, as the API does, since a
repository name may itself hold `/`:

* `POST .../blobs/uploads/` opens an upload session and answers with its URL in `Location`;
* `PUT .../blobs/uploads/<session>?digest=<digest>` stores the body under the digest, if it is
  the digest of the body and the session was opened for that repository;
* `PUT .../manifests/<tag>` stores the manifest under the tag;
* `GET .../manifests/<tag>` and `GET .../blobs/<digest>` return what is stored.

A client sees the registry as a `Server`: the registry answers each request in turn from a
state, and the client gets the answer to the last one.
-/

namespace Kro.Oci

open Kro.Go

/-- What a registry holds. -/
structure Store where
  /-- The open upload sessions, with the repository each is for. -/
  uploads : String → Option String
  /-- The blobs of each repository, by digest. -/
  blobs : String → String → Option (List UInt8)
  /-- The manifests of each repository, by tag. -/
  manifests : String → String → Option Manifest
  /-- The number of the next upload session. -/
  next : Nat

/-- An empty registry. -/
def Store.empty : Store := ⟨fun _ => none, fun _ _ => none, fun _ _ => none, 0⟩

/-- The URL of an upload session of a repository. -/
def uploadURL (host name session : String) : String :=
  "https://" ++ host ++ "/v2/" ++ name ++ "/blobs/uploads/" ++ session

/-- The URL of the upload session a registry opens next for a repository. -/
def Store.sessionURL (s : Store) (host name : String) : String :=
  uploadURL host name (toString s.next)

/-- The registry with the next upload session open for a repository. -/
def Store.openSession (s : Store) (name : String) : Store :=
  { s with uploads := Function.update s.uploads (toString s.next) (some name), next := s.next + 1 }

/-- The endpoints of the API under a repository name. -/
inductive Endpoint where
  | uploads
  | upload (session : String)
  | manifest (tag : String)
  | blob (digest : String)
  deriving Repr, DecidableEq

/-- A repository name from its path components, last first. -/
def joinName (components : List String) : String :=
  String.mk (List.intercalate ['/'] (components.reverse.map String.toList))

/-- The repository name and endpoint of the path components after `/v2/`, last first:
`.../manifests/<tag>`, `.../blobs/<digest>`, `.../blobs/uploads/` and
`.../blobs/uploads/<session>`. -/
def endpointOf : List String → Option (String × Endpoint)
  | last :: kind :: name =>
    if kind = "manifests" then some (joinName name, .manifest last)
    else if kind = "blobs" then some (joinName name, .blob last)
    else if kind = "uploads" ∧ name.head? = some "blobs" then
      some (joinName name.tail, if last = "" then .uploads else .upload last)
    else none
  | _ => none

/-- The repository name and endpoint of a URL on a host, and its query. -/
def route (host url : String) : Option (String × Endpoint × Option String) :=
  let path := url.toList.takeWhile (· ≠ '?')
  let query := match url.toList.dropWhile (· ≠ '?') with
    | [] => none
    | _ :: q => some (String.mk q)
  match (stringsSplit '/' path).map String.mk with
  | "https:" :: "" :: h :: "v2" :: components =>
    if h = host then (endpointOf components.reverse).map fun (name, e) => (name, e, query)
    else none
  | _ => none

/-- `f` with the entry of `name` and `key` set. -/
def update₂ {α : Type} (f : String → String → Option α) (name key : String) (v : Option α) :
    String → String → Option α :=
  fun n k => if n = name ∧ k = key then v else f n k

@[simp] theorem update₂_same {α : Type} (f : String → String → Option α) (name key : String)
    (v : Option α) : update₂ f name key v name key = v := by
  simp [update₂]

/-- The answer to a request for nothing the registry has. -/
def notFound : Response := ⟨404, "404 Not Found", "", .empty⟩

/-- One request: the registry after it, and its answer. -/
def serve (codec : Codec) (host auth : String) (s : Store) (req : Request) : Store × Response :=
  if req.headers.lookup "Authorization" ≠ some ("Basic " ++ auth) then
    (s, ⟨401, "401 Unauthorized", "", .empty⟩)
  else
    match req.method, route host req.url, req.body with
    | "POST", some (name, .uploads, _), _ =>
      (s.openSession name, ⟨202, "202 Accepted", s.sessionURL host name, .empty⟩)
    | "PUT", some (name, .upload session, some query), .blob content =>
      if s.uploads session = some name ∧ query = "digest=" ++ digestOf codec content then
        ({ s with uploads := Function.update s.uploads session none,
                  blobs := update₂ s.blobs name (digestOf codec content) (some content) },
          ⟨201, "201 Created", "", .empty⟩)
      else (s, ⟨400, "400 Bad Request", "", .empty⟩)
    | "PUT", some (name, .manifest tag, _), .manifest m =>
      ({ s with manifests := update₂ s.manifests name tag (some m) },
        ⟨201, "201 Created", "", .empty⟩)
    | "GET", some (name, .manifest tag, _), _ =>
      match s.manifests name tag with
      | some m => (s, ⟨200, "200 OK", "", .manifest m⟩)
      | none => (s, notFound)
    | "GET", some (name, .blob digest, _), _ =>
      match s.blobs name digest with
      | some content => (s, ⟨200, "200 OK", "", .blob content⟩)
      | none => (s, notFound)
    | _, _, _ => (s, notFound)

/-- The registry after a list of requests, and its answer to the last. -/
def replay (codec : Codec) (host auth : String) (s : Store) (reqs : List Request) :
    Store × Option Response :=
  reqs.foldl (fun acc req => let r := serve codec host auth acc.1 req; (r.1, some r.2)) (s, none)

/-- The registry, from a state, as the server a client talks to. -/
def Store.server (s : Store) (codec : Codec) (host auth : String) : Server := fun sent =>
  match (replay codec host auth s sent).2 with
  | some resp => .ok resp
  | none => .error "no request"

/-! ### Routing the client's URLs -/

/-- The characters of `https://host/v2/name/`. -/
def urlPrefix (host name : String) : List Char :=
  "https:".toList ++ '/' :: ([] ++ '/' :: (host.toList ++ '/' :: ("v2".toList ++ '/' ::
    (name.toList ++ ['/']))))

theorem not_mem_urlPrefix {host name : String} (hhost : '?' ∉ host.toList)
    (hname : '?' ∉ name.toList) : '?' ∉ urlPrefix host name := by
  simp only [urlPrefix, List.mem_append, List.mem_cons, not_or]
  exact ⟨by decide, by decide, by decide, by decide, hhost, by decide, by decide, by decide, hname,
    by decide⟩

/-- The path components of a URL `https://host/v2/name/tail`. -/
theorem pieces_url {host : String} (hhost : '/' ∉ host.toList) (name : String) (tail : List Char) :
    (stringsSplit '/' (urlPrefix host name ++ tail)).map String.mk =
      "https:" :: "" :: host :: "v2" :: ((stringsSplit '/' name.toList).map String.mk ++
        (stringsSplit '/' tail).map String.mk) := by
  have hshape : urlPrefix host name ++ tail = "https:".toList ++ '/' :: ([] ++ '/' ::
      (host.toList ++ '/' :: ("v2".toList ++ '/' :: (name.toList ++ '/' :: tail)))) := by
    simp [urlPrefix]
  rw [hshape]
  simp only [stringsSplit_append_sep, stringsSplit_of_not_mem hhost, List.map_append]
  rfl

theorem joinName_split (name : String) :
    joinName ((stringsSplit '/' name.toList).map String.mk).reverse = name := by
  simp only [joinName, List.reverse_reverse, List.map_map]
  rw [show (String.toList ∘ String.mk) = id from rfl, List.map_id]
  exact congrArg String.mk (List.intercalate_splitOn name.toList '/')

/-- How `route` reads a URL on the host from its path and its query. -/
theorem route_of_path {host name url : String} {tail : List Char} {query : Option String}
    (hhost : '/' ∉ host.toList)
    (hpath : url.toList.takeWhile (· ≠ '?') = urlPrefix host name ++ tail)
    (hquery : (match url.toList.dropWhile (· ≠ '?') with
        | [] => none
        | _ :: q => some (String.mk q)) = query) :
    route host url = (endpointOf (((stringsSplit '/' tail).map String.mk).reverse ++
      ((stringsSplit '/' name.toList).map String.mk).reverse)).map fun p => (p.1, p.2, query) := by
  simp only [route, hpath, pieces_url hhost, hquery, if_pos rfl, List.reverse_append]
  rfl

theorem endpointOf_uploads (last : String) (name : List String) :
    endpointOf (last :: "uploads" :: "blobs" :: name) =
      some (joinName name, if last = "" then .uploads else .upload last) := rfl

theorem endpointOf_manifest (tag : String) (name : List String) :
    endpointOf (tag :: "manifests" :: name) = some (joinName name, .manifest tag) := rfl

theorem endpointOf_blob (digest : String) (name : List String) :
    endpointOf (digest :: "blobs" :: name) = some (joinName name, .blob digest) := rfl

theorem toDigitsCore_succ (fuel n : Nat) (ds : List Char) :
    Nat.toDigitsCore 10 (fuel + 1) n ds =
      if n / 10 = 0 then Nat.digitChar (n % 10) :: ds
      else Nat.toDigitsCore 10 fuel (n / 10) (Nat.digitChar (n % 10) :: ds) := rfl

theorem mem_toDigitsCore {fuel n : Nat} {ds : List Char} {c : Char}
    (h : c ∈ Nat.toDigitsCore 10 fuel n ds) : c ∈ ds ∨ c.isDigit = true := by
  have hdigit : ∀ d, d < 10 → (Nat.digitChar d).isDigit = true := by decide
  induction fuel generalizing n ds with
  | zero => exact .inl h
  | succ fuel ih =>
    rw [toDigitsCore_succ] at h
    split at h
    · rcases List.mem_cons.mp h with rfl | h
      · exact .inr (hdigit _ (Nat.mod_lt _ (by decide)))
      · exact .inl h
    · rcases ih h with h | h
      · rcases List.mem_cons.mp h with rfl | h
        · exact .inr (hdigit _ (Nat.mod_lt _ (by decide)))
        · exact .inl h
      · exact .inr h

theorem toDigitsCore_succ_ne_nil (fuel n : Nat) (ds : List Char) :
    Nat.toDigitsCore 10 (fuel + 1) n ds ≠ [] := by
  induction fuel generalizing n ds with
  | zero => rw [toDigitsCore_succ]; split <;> exact List.cons_ne_nil _ _
  | succ fuel ih =>
    rw [toDigitsCore_succ]
    split
    · exact List.cons_ne_nil _ _
    · exact ih _ _

theorem isDigit_of_mem_toString {n : Nat} {c : Char} (h : c ∈ (toString n).toList) :
    c.isDigit = true :=
  (mem_toDigitsCore h).resolve_left (List.not_mem_nil c)

/-- A session number, as the registry writes it, is a name of one path component. -/
theorem session_name (n : Nat) :
    toString n ≠ "" ∧ '/' ∉ (toString n).toList ∧ '?' ∉ (toString n).toList := by
  have hdigits : ∀ c ∈ (toString n).toList, c.isDigit = true := fun _ => isDigit_of_mem_toString
  refine ⟨fun h => ?_, fun h => absurd (hdigits _ h) (by decide),
    fun h => absurd (hdigits _ h) (by decide)⟩
  exact toDigitsCore_succ_ne_nil n n [] (congrArg String.data h)

/-- One digit of a decimal text. -/
def decimalStep (acc : Nat) (c : Char) : Nat := acc * 10 + (c.toNat - 48)

theorem digitChar_value {d : Nat} (h : d < 10) : (Nat.digitChar d).toNat - 48 = d := by
  have hall : ∀ d, d < 10 → (Nat.digitChar d).toNat - 48 = d := by decide
  exact hall d h

/-- The digits `toDigitsCore` puts before its accumulator are the decimal text of the number. -/
theorem toDigitsCore_decimal (fuel n : Nat) (ds : List Char) (h : n < fuel) :
    ∃ digits, Nat.toDigitsCore 10 fuel n ds = digits ++ ds ∧
      digits.foldl decimalStep 0 = n := by
  induction fuel generalizing n ds with
  | zero => omega
  | succ fuel ih =>
    rw [toDigitsCore_succ]
    have hlast := digitChar_value (Nat.mod_lt n (by decide : 10 > 0))
    split
    · refine ⟨[Nat.digitChar (n % 10)], rfl, ?_⟩
      simp only [List.foldl_cons, List.foldl_nil, decimalStep, hlast]
      omega
    · obtain ⟨digits, hd, hv⟩ := ih (n / 10) (Nat.digitChar (n % 10) :: ds) (by omega)
      refine ⟨digits ++ [Nat.digitChar (n % 10)], by rw [hd, List.append_assoc]; rfl, ?_⟩
      simp only [List.foldl_append, List.foldl_cons, List.foldl_nil, hv, decimalStep, hlast]
      omega

/-- Reading a number's decimal text back gives the number. -/
theorem foldl_decimalStep_toString (n : Nat) : (toString n).toList.foldl decimalStep 0 = n := by
  obtain ⟨digits, hd, hv⟩ := toDigitsCore_decimal (n + 1) n [] (Nat.lt_succ_self n)
  show (Nat.toDigitsCore 10 (n + 1) n []).foldl decimalStep 0 = n
  rw [hd, List.append_nil, hv]

/-- Distinct sessions have distinct names. -/
theorem toString_injective : Function.Injective (toString : Nat → String) := fun a b h => by
  rw [← foldl_decimalStep_toString a, ← foldl_decimalStep_toString b, h]

/-- The URL of an upload session is never empty. -/
theorem sessionURL_ne_empty (s : Store) (host name : String) : s.sessionURL host name ≠ "" := by
  intro h
  have hlen := congrArg String.length h
  simp [Store.sessionURL, uploadURL] at hlen
  exact (session_name s.next).1 (String.ext (List.eq_nil_of_length_eq_zero hlen.2))

section Routes

variable {host name : String} (hhost : '/' ∉ host.toList ∧ '?' ∉ host.toList)
  (hname : '?' ∉ name.toList)
include hhost hname

/-- A URL `https://host/v2/name/tail` with no query. -/
theorem route_plain {url : String} (tail : List Char)
    (hurl : url.toList = urlPrefix host name ++ tail) (htail : '?' ∉ tail) :
    route host url = (endpointOf (((stringsSplit '/' tail).map String.mk).reverse ++
      ((stringsSplit '/' name.toList).map String.mk).reverse)).map fun p => (p.1, p.2, none) := by
  have hq := takeWhile_dropWhile_of_not_mem (List.not_mem_append (not_mem_urlPrefix hhost.2 hname) htail)
  rw [← hurl] at hq
  exact route_of_path hhost.1 (by rw [hq.1, hurl]) (by rw [hq.2])

/-- The URL of the `POST` that starts an upload. -/
theorem route_uploads :
    route host ("https://" ++ host ++ "/v2/" ++ name ++ "/blobs/uploads/") =
      some (name, .uploads, none) := by
  have hs : (stringsSplit '/' "blobs/uploads/".toList).map String.mk = ["blobs", "uploads", ""] := by
    decide
  rw [route_plain hhost hname ("blobs/uploads/".toList)
    (by simp [String.toList, urlPrefix]) (by decide), hs]
  simp only [List.reverse_cons, List.reverse_nil, List.nil_append, List.cons_append,
    List.singleton_append, endpointOf_uploads, joinName_split]
  rfl

/-- The URL of a manifest. -/
theorem route_manifest {tag : String} (htag : '/' ∉ tag.toList ∧ '?' ∉ tag.toList) :
    route host ("https://" ++ host ++ "/v2/" ++ name ++ "/manifests/" ++ tag) =
      some (name, .manifest tag, none) := by
  have hs : (stringsSplit '/' ("manifests".toList ++ '/' :: tag.toList)).map String.mk =
      ["manifests", tag] := by
    rw [stringsSplit_append_sep, stringsSplit_of_not_mem htag.1]; rfl
  rw [route_plain hhost hname ("manifests".toList ++ '/' :: tag.toList)
    (by simp [String.toList, urlPrefix]) (by simpa using htag.2), hs]
  simp only [List.reverse_cons, List.reverse_nil, List.nil_append, List.cons_append,
    List.singleton_append, endpointOf_manifest, joinName_split]
  rfl

/-- The URL of a blob. -/
theorem route_blob {digest : String} (hdigest : '/' ∉ digest.toList ∧ '?' ∉ digest.toList) :
    route host ("https://" ++ host ++ "/v2/" ++ name ++ "/blobs/" ++ digest) =
      some (name, .blob digest, none) := by
  have hs : (stringsSplit '/' ("blobs".toList ++ '/' :: digest.toList)).map String.mk =
      ["blobs", digest] := by
    rw [stringsSplit_append_sep, stringsSplit_of_not_mem hdigest.1]; rfl
  rw [route_plain hhost hname ("blobs".toList ++ '/' :: digest.toList)
    (by simp [String.toList, urlPrefix]) (by simpa using hdigest.2), hs]
  simp only [List.reverse_cons, List.reverse_nil, List.nil_append, List.cons_append,
    List.singleton_append, endpointOf_blob, joinName_split]
  rfl

/-- A URL `https://host/v2/name/tail?query`. -/
theorem route_query {url : String} (tail : List Char) (query : String)
    (hurl : url.toList = urlPrefix host name ++ tail ++ '?' :: query.toList) (htail : '?' ∉ tail) :
    route host url = (endpointOf (((stringsSplit '/' tail).map String.mk).reverse ++
      ((stringsSplit '/' name.toList).map String.mk).reverse)).map
        fun p => (p.1, p.2, some query) := by
  have hq := takeWhile_dropWhile_append
    (List.not_mem_append (not_mem_urlPrefix hhost.2 hname) htail) query.toList
  rw [← hurl] at hq
  exact route_of_path hhost.1 (by rw [hq.1]) (by rw [hq.2]; rfl)

/-- The URL of an upload session, with a query. -/
theorem route_session {session : String}
    (hsession : session ≠ "" ∧ '/' ∉ session.toList ∧ '?' ∉ session.toList) (query : String) :
    route host ("https://" ++ host ++ "/v2/" ++ name ++ "/blobs/uploads/" ++ session ++ "?" ++
      query) = some (name, .upload session, some query) := by
  have hs : (stringsSplit '/' ("blobs".toList ++ '/' :: ("uploads".toList ++ '/' ::
      session.toList))).map String.mk = ["blobs", "uploads", session] := by
    rw [stringsSplit_append_sep, stringsSplit_append_sep, stringsSplit_of_not_mem hsession.2.1]; rfl
  rw [route_query hhost hname ("blobs".toList ++ '/' :: ("uploads".toList ++ '/' :: session.toList))
    query (by simp [String.toList, urlPrefix]) (by simpa using hsession.2.2), hs]
  simp only [List.reverse_cons, List.reverse_nil, List.nil_append, List.cons_append,
    List.singleton_append, endpointOf_uploads, joinName_split, if_neg hsession.1]
  rfl

theorem not_mem_uploadURL (n : Nat) : '?' ∉ (uploadURL host name (toString n)).toList := by
  simp only [uploadURL, String.toList, String.data_append, List.mem_append, not_or]
  exact ⟨⟨⟨⟨⟨by decide, hhost.2⟩, by decide⟩, hname⟩, by decide⟩,
    (session_name n).2.2⟩

/-- The URL of a session the registry names by a number, with a query. -/
theorem route_uploadURL (n : Nat) (query : String) :
    route host (uploadURL host name (toString n) ++ "?" ++ query) =
      some (name, .upload (toString n), some query) :=
  route_session hhost hname (session_name n) query

theorem not_mem_sessionURL (s : Store) : '?' ∉ (s.sessionURL host name).toList :=
  not_mem_uploadURL hhost hname s.next

/-- The URL of the session the registry opened, with a query. -/
theorem route_sessionURL (s : Store) (query : String) :
    route host (s.sessionURL host name ++ "?" ++ query) =
      some (name, .upload (toString s.next), some query) :=
  route_uploadURL hhost hname s.next query

end Routes

/-! ### Serving the client's requests -/

theorem lookup_authorization {req : Request} {auth : String}
    (h : req.headers.head? = some ("Authorization", "Basic " ++ auth)) :
    req.headers.lookup "Authorization" = some ("Basic " ++ auth) := by
  match req.headers, h with
  | _ :: _, h =>
    cases Option.some.inj h
    exact List.lookup_cons_self

section Serve

variable (codec : Codec) (host auth : String) (s : Store) (req : Request) {name : String}
  (hauth : req.headers.head? = some ("Authorization", "Basic " ++ auth))
include hauth

/-- A `POST` to `.../blobs/uploads/` opens a session. -/
theorem serve_uploads {query : Option String} (hmethod : req.method = "POST")
    (hroute : route host req.url = some (name, .uploads, query)) :
    serve codec host auth s req =
      (s.openSession name, ⟨202, "202 Accepted", s.sessionURL host name, .empty⟩) := by
  simp only [serve, lookup_authorization hauth, hmethod, hroute, ne_eq, not_true_eq_false,
    if_false]

/-- A `PUT` of a blob to an open session, with its digest, stores it. -/
theorem serve_session {session : String} {content : List UInt8} (hmethod : req.method = "PUT")
    (hroute : route host req.url =
      some (name, .upload session, some ("digest=" ++ digestOf codec content)))
    (hbody : req.body = .blob content) (hopen : s.uploads session = some name) :
    serve codec host auth s req =
      ({ s with uploads := Function.update s.uploads session none,
                blobs := update₂ s.blobs name (digestOf codec content) (some content) },
        ⟨201, "201 Created", "", .empty⟩) := by
  simp only [serve, lookup_authorization hauth, hmethod, hroute, hbody, hopen, ne_eq,
    not_true_eq_false, if_false, and_self, if_true]

/-- A `PUT` of a manifest stores it under its tag. -/
theorem serve_manifest_put {tag : String} {query : Option String} {m : Manifest}
    (hmethod : req.method = "PUT") (hroute : route host req.url = some (name, .manifest tag, query))
    (hbody : req.body = .manifest m) :
    serve codec host auth s req =
      ({ s with manifests := update₂ s.manifests name tag (some m) },
        ⟨201, "201 Created", "", .empty⟩) := by
  simp only [serve, lookup_authorization hauth, hmethod, hroute, hbody, ne_eq, not_true_eq_false,
    if_false]

/-- A `GET` of a stored manifest returns it. -/
theorem serve_manifest_get {tag : String} {query : Option String} {m : Manifest}
    (hmethod : req.method = "GET") (hroute : route host req.url = some (name, .manifest tag, query))
    (hstored : s.manifests name tag = some m) :
    serve codec host auth s req = (s, ⟨200, "200 OK", "", .manifest m⟩) := by
  simp only [serve, lookup_authorization hauth, hmethod, hroute, hstored, ne_eq,
    not_true_eq_false, if_false]

/-- A `GET` of a stored blob returns it. -/
theorem serve_blob_get {digest : String} {query : Option String} {content : List UInt8}
    (hmethod : req.method = "GET") (hroute : route host req.url = some (name, .blob digest, query))
    (hstored : s.blobs name digest = some content) :
    serve codec host auth s req = (s, ⟨200, "200 OK", "", .blob content⟩) := by
  simp only [serve, lookup_authorization hauth, hmethod, hroute, hstored, ne_eq,
    not_true_eq_false, if_false]

end Serve

/-! ### A consistent registry -/

/-- A registry is consistent when each blob is stored under its own digest and each manifest
names only blobs of its repository that are stored. -/
structure Store.Consistent (codec : Codec) (s : Store) : Prop where
  blob_digest : ∀ {name d content}, s.blobs name d = some content → digestOf codec content = d
  manifest_blobs : ∀ {name tag m}, s.manifests name tag = some m →
    ∀ d ∈ m.config.digest :: m.layers.map (·.digest), (s.blobs name d).isSome

theorem Store.empty_consistent (codec : Codec) : Store.empty.Consistent codec :=
  ⟨fun h => (nomatch h), fun h => (nomatch h)⟩

theorem update₂_apply {α : Type} (f : String → String → Option α) (name key : String)
    (v : Option α) (n k : String) :
    update₂ f name key v n k = if n = name ∧ k = key then v else f n k := rfl

namespace Store.Consistent

variable {codec : Codec} {s : Store} (h : s.Consistent codec)
include h

/-- Opening a session changes no blob and no manifest. -/
theorem openSession (name : String) : (s.openSession name).Consistent codec :=
  ⟨h.blob_digest, h.manifest_blobs⟩

/-- Storing a content under its digest keeps a registry consistent, and so does closing a
session. -/
theorem putBlob (uploads : String → Option String) (name : String) (content : List UInt8) :
    ({ s with uploads := uploads,
               blobs := update₂ s.blobs name (digestOf codec content) (some content) } :
      Store).Consistent codec := by
  have grow : ∀ {n d}, (s.blobs n d).isSome →
      (update₂ s.blobs name (digestOf codec content) (some content) n d).isSome := by
    intro n d hd
    rw [update₂_apply]
    split <;> simp_all
  refine ⟨fun {n d c} hc => ?_, fun hm d hd => grow (h.manifest_blobs hm d hd)⟩
  dsimp only at hc
  rw [update₂_apply] at hc
  split at hc
  · rename_i heq
    cases hc
    exact heq.2.symm
  · exact h.blob_digest hc

/-- Storing a manifest whose blobs are stored keeps a registry consistent. -/
theorem putManifest {name tag : String} {m : Manifest}
    (hm : ∀ d ∈ m.config.digest :: m.layers.map (·.digest), (s.blobs name d).isSome) :
    ({ s with manifests := update₂ s.manifests name tag (some m) } : Store).Consistent codec := by
  refine ⟨h.blob_digest, fun {n t m'} hm' => ?_⟩
  dsimp only at hm'
  rw [update₂_apply] at hm'
  split at hm'
  · rename_i heq
    cases hm'
    exact heq.1 ▸ hm
  · exact h.manifest_blobs hm'

end Store.Consistent

end Kro.Oci
