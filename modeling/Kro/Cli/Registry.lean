import Kro.Oci.Wire

/-!
# `kro registry login` and `kro publish`

`login` reads a token from standard input and stores `AWS:token`, in base64, under the
registry exactly as the user typed it, in `~/.kro/registry/config.json`.  `publish` splits its
reference into a repository and a tag, takes the registry as the part of the repository before
the first `/`, looks the credential up under that name, and pushes the package in three
calls: it starts an upload, puts the blob at the URL the registry answers with, and puts a
manifest that names the blob by its digest.

* `publish_after_run` — **PROVED**: across any sequence of logins and publishes, every request a
  publish sends carries the credential of the last login to exactly its registry name.
* `publish_after_login_port` — **PROVED**: after `login host:port`, `publish host:port/path`
  without `--tag` sends nothing and fails asking for a login to `host`: the reference is split
  at its first `:`, which is the port's.
* `pushImage_relative_location` — **PROVED**: a registry that accepts the upload with a
  `Location` that is a path, as the distribution API allows, gets no blob: `client.Do` refuses
  the blob's URL, which has no scheme, and the push fails.
* `pushImage_tag_fragment` — **PROVED**: a tag `t#f` pushes the manifest under `t`, since
  `url.Parse` cuts the manifest's URL at the `#`.

The registry is a parameter: its answer to the last of the requests it has received so far.
-/

namespace Kro.Registry

open Kro.Go Kro.Go.Url Kro.Oci

/-- `Auth`. -/
structure Auth where
  auth : String
  deriving Repr, DecidableEq

/-- `Config`, the content of `~/.kro/registry/config.json`. -/
structure Config where
  auths : GoMap Auth
  deriving Repr, DecidableEq

/-! ### `kro registry login` -/

/-- `loadConfig`: a missing file is the empty config. -/
def loadConfig (file : Option Config) : Config := file.getD ⟨[]⟩

@[simp] theorem loadConfig_some (config : Config) : loadConfig (some config) = config := rfl

/-- The entry `storeCredentials` writes: `AWS:password` in base64. -/
def awsAuth (codec : Codec) (password : String) : Auth := ⟨codec.base64 ("AWS:" ++ password)⟩

/-- `storeCredentials`: the entry for the password, under the registry as given. -/
def storeCredentials (codec : Codec) (file : Option Config) (registry password : String) :
    Config :=
  ⟨GoMap.set (loadConfig file).auths registry (awsAuth codec password)⟩

/-- `runLogin`: the config it saves, from its arguments, the lines of standard input and the
`--username` flag. -/
def runLogin (codec : Codec) (args stdin : List String) (username : String)
    (file : Option Config) : Except GoError Config :=
  match args with
  | [registryURL] =>
    match stdin with
    | [] => fail "no input provided"
    | token :: _ =>
      if username ≠ "AWS" then fail "only AWS authentication is supported"
      else .ok (storeCredentials codec file registryURL token)
  | _ => fail "registry URL is required"

/-! ### The push -/

/-- The manifest of a package: one layer, the tar, which also stands as the config. -/
def imageManifest (digest : String) (size : Nat) : Manifest :=
  ⟨2, "application/vnd.oci.image.manifest.v1+json",
    ⟨"application/vnd.oci.image.config.v1+json", size, digest⟩,
    [⟨"application/vnd.oci.image.layer.v1.tar", size, digest⟩]⟩

/-- The `POST` that starts the upload. -/
def uploadCall (registry repoName auth : String) : Call :=
  ⟨"POST", "https://" ++ registry ++ "/v2/" ++ repoName ++ "/blobs/uploads/",
    [("Authorization", "Basic " ++ auth)], .empty, 202, "failed to initiate upload"⟩

/-- The upload URL with the digest added as one more query parameter. -/
def blobURL (location digest : String) : String :=
  location ++ (if '?' ∈ location.toList then "&" else "?") ++ "digest=" ++ digest

/-- The `PUT` of the blob. -/
def blobCall (location digest auth : String) (content : List UInt8) : Call :=
  ⟨"PUT", blobURL location digest,
    [("Authorization", "Basic " ++ auth), ("Content-Type", "application/octet-stream"),
      ("Content-Length", toString content.length)], .blob content, 201, "failed to push content"⟩

/-- The `PUT` of the manifest. -/
def manifestCall (registry repoName tag digest auth : String) (size : Nat) : Call :=
  ⟨"PUT", "https://" ++ registry ++ "/v2/" ++ repoName ++ "/manifests/" ++ tag,
    [("Authorization", "Basic " ++ auth),
      ("Content-Type", "application/vnd.oci.image.manifest.v1+json")],
    .manifest (imageManifest digest size), 201, "failed to push manifest"⟩

/-- `pushImage`: the requests sent, and the outcome. -/
def pushImage (lib : GoLib) (codec : Codec) (srv : Server) (repository tag : String)
    (content : List UInt8) (auth : String) : List Request × Except GoError Unit :=
  let (registry, repoName) := splitRepository repository
  let digest := digestOf codec content
  match (uploadCall registry repoName auth).send lib codec srv [] with
  | (sent, .error e) => (sent, .error e)
  | (sent, .ok resp) =>
    if resp.location = "" then (sent, fail "no upload URL received")
    else
      match (blobCall resp.location digest auth content).send lib codec srv sent with
      | (sent, .error e) => (sent, .error e)
      | (sent, .ok _) =>
        let r := (manifestCall registry repoName tag digest auth content.length).send lib codec srv
          sent
        (r.1, r.2.map fun _ => ())

/-- A push whose three calls succeed in turn succeeds, having sent what they sent. -/
theorem pushImage_of_ok {lib : GoLib} {codec : Codec} {srv : Server} {repository tag : String}
    {content : List UInt8} {auth registry repoName : String}
    (hs : splitRepository repository = (registry, repoName)) {sent₁ sent₂ sent₃ : List Request}
    {r₁ r₂ r₃ : Response}
    (h₁ : (uploadCall registry repoName auth).send lib codec srv [] = (sent₁, .ok r₁))
    (hloc : r₁.location ≠ "")
    (h₂ : (blobCall r₁.location (digestOf codec content) auth content).send lib codec srv sent₁ =
      (sent₂, .ok r₂))
    (h₃ : (manifestCall registry repoName tag (digestOf codec content) auth content.length).send lib
      codec srv sent₂ = (sent₃, .ok r₃)) :
    pushImage lib codec srv repository tag content auth = (sent₃, .ok ()) := by
  simp only [pushImage, hs, h₁, h₂, h₃, hloc, if_false]
  rfl

/-! ### `kro publish` -/

/-- The split of `runPublish`: without `--tag`, the reference up to its first `:` is the
repository and the text up to the next `:` the tag; with no `:` the tag is `latest`. -/
def splitReference (reference tag : String) : String × String :=
  if tag = "" then
    match stringsSplit ':' reference.toList with
    | repo :: t :: _ => (String.mk repo, String.mk t)
    | _ => (reference, "latest")
  else (reference, tag)

/-- `strings.Split(repository, "/")[0]`. -/
def registryOf (repository : String) : String :=
  String.mk ((stringsSplit '/' repository.toList).headD [])

/-- `runPublish`: the requests sent and the outcome, from the arguments, the `--tag` flag,
the package file (or the error reading it) and the config file. -/
def runPublish (lib : GoLib) (codec : Codec) (srv : Server) (args : List String) (tag : String)
    (file : Except String (List UInt8)) (config : Option Config) :
    List Request × Except GoError Unit :=
  match args with
  | [reference] =>
    let (repository, tag) := splitReference reference tag
    match file with
    | .error e => ([], fail ("failed to read file: " ++ e))
    | .ok content =>
      let registry := registryOf repository
      match GoMap.get (loadConfig config).auths registry with
      | none =>
        ([], fail ("no credentials found for " ++ registry ++
          ", please run \x27kro registry login\x27 first"))
      | some auth =>
        let (sent, r) := pushImage lib codec srv repository tag content auth.auth
        (sent, wrapErr "failed to push image: " r)
  | _ => ([], fail "repository URL is required")

/-- A registry that accepts every push: the upload with the URL of a session, then the blob
and the manifest. -/
def acceptingServer : Server := fun sent =>
  if sent.length = 1 then .ok ⟨202, "202 Accepted", "https://reg/v2/app/blobs/uploads/1", .empty⟩
  else .ok ⟨201, "201 Created", "", .empty⟩

example : (pushImage GoLib.minimal sampleCodec acceptingServer "reg/team/app" "v1" [1, 2]
    "tok").1.map (·.url) = ["https://reg/v2/team/app/blobs/uploads/",
      "https://reg/v2/app/blobs/uploads/1?digest=sha256:0f", "https://reg/v2/team/app/manifests/v1"] := by
  decide

/-- Every request of a call sent after requests that carry the credential carries it too. -/
theorem send_authorization (lib : GoLib) (codec : Codec) (srv : Server) (auth : String) (c : Call)
    (hc : c.headers.head? = some ("Authorization", "Basic " ++ auth)) (sent : List Request)
    (hsent : ∀ req ∈ sent, req.headers.head? = some ("Authorization", "Basic " ++ auth)) :
    ∀ req ∈ (c.send lib codec srv sent).1,
      req.headers.head? = some ("Authorization", "Basic " ++ auth) := fun req hreq =>
  (Call.send_mem hreq).elim (hsent req) fun h => h.1 ▸ hc

/-- Every request of a push carries the credential, as its first header. -/
theorem pushImage_authorization (lib : GoLib) (codec : Codec) (srv : Server)
    (repository tag : String) (content : List UInt8) (auth : String) :
    ∀ req ∈ (pushImage lib codec srv repository tag content auth).1,
      req.headers.head? = some ("Authorization", "Basic " ++ auth) := by
  rcases hs : splitRepository repository with ⟨registry, repoName⟩
  have h₁ := send_authorization lib codec srv auth (uploadCall registry repoName auth) rfl []
    (by simp)
  simp only [pushImage, hs]
  rcases hu : (uploadCall registry repoName auth).send lib codec srv [] with ⟨sent₁, _ | resp⟩
  · rw [hu] at h₁; exact h₁
  · rw [hu] at h₁
    dsimp only
    split
    · exact h₁
    · have h₂ := send_authorization lib codec srv auth
        (blobCall resp.location (digestOf codec content) auth content) rfl sent₁ h₁
      rcases hb : (blobCall resp.location (digestOf codec content) auth content).send lib codec srv
        sent₁ with ⟨sent₂, _ | _⟩
      · rw [hb] at h₂; exact h₂
      · rw [hb] at h₂
        exact send_authorization lib codec srv auth
          (manifestCall registry repoName tag (digestOf codec content) auth content.length) rfl sent₂ h₂

/-! ### What `client.Do` refuses -/

/-- The text of a blob's URL when the location has no query. -/
theorem blobURL_of_not_mem {location : String} (h : '?' ∉ location.toList) (digest : String) :
    (blobURL location digest).toList = location.toList ++ withQuery ("digest=" ++ digest).toList := by
  rw [blobURL, if_neg h, withQuery, if_neg (by simp [String.toList])]
  simp only [String.toList, String.data_append, List.append_assoc]
  rfl

/-- The blob's call to a location that is a path sends nothing: `url.Parse` reads its URL as a
path with no scheme, which `client.Do` refuses. -/
theorem blobCall_run_path (lib : GoLib) (codec : Codec) {path : String}
    (hpath : ∀ c ∈ path.toList, isPathChar c) (hhead : path.toList.head? ≠ some '/')
    {digest : String} (hdigest : ∀ c ∈ digest.toList, IsPlain c ∧ isPathChar c) (auth : String)
    (content : List UInt8) (answer : Request → Except String Response) :
    (blobCall ("/" ++ path) digest auth content).run lib codec answer =
      (none, fail ("Put \"" ++ blobURL ("/" ++ path) digest ++
        "\": unsupported protocol scheme \"\"")) := by
  have hloc : ("/" ++ path).toList = '/' :: path.toList := rfl
  have hq : '?' ∉ ("/" ++ path).toList := fun h =>
    (List.mem_cons.mp (hloc ▸ h)).elim (fun h => absurd h (by decide))
      fun h => isPathChar_ne (hpath _ h) (by decide) rfl
  have hqc : ∀ c ∈ ("digest=" ++ digest).toList, IsPlain c ∧ c ≠ '#' := by
    simp only [String.toList, String.data_append, List.mem_append]
    rintro c (hc | hc)
    · exact (by decide : ∀ c ∈ "digest=".toList, IsPlain c ∧ c ≠ '#') c hc
    · exact ⟨(hdigest c hc).1, isPathChar_ne (hdigest c hc).2 (by decide)⟩
  have hurl := blobURL_of_not_mem hq digest
  rw [hloc] at hurl
  have hall : ∀ c ∈ '/' :: path.toList ++ withQuery ("digest=" ++ digest).toList, IsPlain c := by
    intro c hc
    rcases List.mem_append.mp hc with hc | hc
    · rcases List.mem_cons.mp hc with rfl | hc
      · decide
      · exact isPathChar_plain (hpath c hc)
    · rcases mem_withQuery hc with rfl | hc
      · decide
      · exact (hqc c hc).1
  have hparse := parseURL_path lib hpath hhead (q := ("digest=" ++ digest).toList) fun c hc =>
    ⟨(hqc c hc).2, isCTL_of_plain (hqc c hc).1⟩
  have hnew : newRequest lib "PUT" (blobURL ("/" ++ path) digest) =
      .ok ("PUT", ⟨[], [], none, [], false, '/' :: path.toList, false,
        ("digest=" ++ digest).toList, []⟩) := by
    simp only [newRequest, hurl, hparse]
    rfl
  have hstrip : stripPassword ⟨[], [], none, [], false, '/' :: path.toList, false,
      ("digest=" ++ digest).toList, []⟩ = utf8Bytes (blobURL ("/" ++ path) digest).toList := by
    show utf8Bytes (URL.string _) = _
    rw [string_path hpath, hurl]
  have hhttp : ¬ (([] : List Char) = "http".toList ∨ ([] : List Char) = "https".toList) := by
    decide
  simp only [Call.run, blobCall, hnew, prepare, if_neg hhttp, not_false_eq_true, if_true, hstrip,
    urlError_plain lib _ (hurl ▸ hall), fail]
  refine Prod.ext rfl (congrArg Except.error (congrArg GoError.error (String.ext ?_)))
  simp only [String.data_append, List.append_assoc]
  rfl

/-- **`kro publish` cannot follow a relative upload location.**  Against every registry that
accepts the upload with a `Location` that is a path (a `/`, then no second one), the push
sends nothing more and fails: `url.Parse` reads the blob's URL as a path with no scheme, and
`client.Do` refuses it before anything is sent. -/
theorem pushImage_relative_location (lib : GoLib) (codec : Codec) (srv : Server)
    (repository tag : String) (content : List UInt8) (auth : String) {sent : List Request}
    {resp : Response} {path : String}
    (hupload : (uploadCall (splitRepository repository).1 (splitRepository repository).2 auth).send
      lib codec srv [] = (sent, .ok resp))
    (hloc : resp.location = "/" ++ path) (hpath : ∀ c ∈ path.toList, isPathChar c)
    (hhead : path.toList.head? ≠ some '/') :
    pushImage lib codec srv repository tag content auth =
      (sent, fail ("Put \"" ++ blobURL resp.location (digestOf codec content) ++
        "\": unsupported protocol scheme \"\"")) := by
  rcases hs : splitRepository repository with ⟨registry, repoName⟩
  rw [hs] at hupload
  have hne : resp.location ≠ "" := fun h =>
    nomatch (congrArg String.toList (hloc.symm.trans h) : '/' :: path.toList = [])
  simp only [pushImage, hs, hupload, if_neg hne]
  rw [hloc]
  simp only [Call.send, blobCall_run_path lib codec hpath hhead (fun c hc => digestOf_char hc),
    Option.toList_none, List.append_nil, fail]

/-- The answer to an upload with a `Location` that is a path. -/
def relativeAnswer : Response := ⟨202, "202 Accepted", "/v2/app/blobs/uploads/1", .empty⟩

/-- A registry that accepts the upload with a `Location` that is a path. -/
def relativeServer : Server := fun _ => .ok relativeAnswer

theorem pushImage_relative_location_sample :
    (uploadCall (splitRepository "reg/app").1 (splitRepository "reg/app").2 "tok").send
        GoLib.minimal sampleCodec relativeServer [] =
      (((uploadCall "reg" "app" "tok").send GoLib.minimal sampleCodec relativeServer []).1,
        .ok relativeAnswer) ∧
      relativeAnswer.location = "/" ++ "v2/app/blobs/uploads/1" ∧
      (∀ c ∈ "v2/app/blobs/uploads/1".toList, isPathChar c) ∧
      "v2/app/blobs/uploads/1".toList.head? ≠ some '/' ∧
      pushImage GoLib.minimal sampleCodec relativeServer "reg/app" "v1" [1, 2] "tok" =
        (((uploadCall "reg" "app" "tok").send GoLib.minimal sampleCodec relativeServer []).1,
          fail ("Put \"" ++ blobURL relativeAnswer.location (digestOf sampleCodec [1, 2]) ++
            "\": unsupported protocol scheme \"\"")) :=
  have hup : (uploadCall (splitRepository "reg/app").1 (splitRepository "reg/app").2 "tok").send
      GoLib.minimal sampleCodec relativeServer [] =
      (((uploadCall "reg" "app" "tok").send GoLib.minimal sampleCodec relativeServer []).1,
        .ok relativeAnswer) := Prod.ext rfl rfl
  have hloc : relativeAnswer.location = "/" ++ "v2/app/blobs/uploads/1" := rfl
  have hpath : ∀ c ∈ "v2/app/blobs/uploads/1".toList, isPathChar c := by decide
  have hhead : "v2/app/blobs/uploads/1".toList.head? ≠ some '/' := by decide
  ⟨hup, hloc, hpath, hhead, pushImage_relative_location GoLib.minimal sampleCodec relativeServer
    "reg/app" "v1" [1, 2] "tok" hup hloc hpath hhead⟩

/-! ### A tag with a `#` -/

/-- The manifest's call for a tag `t#f` is the call for `t`, with `#f` after its URL. -/
theorem manifestCall_fragment (registry repoName t f digest auth : String) (size : Nat) :
    manifestCall registry repoName (t ++ "#" ++ f) digest auth size =
      { manifestCall registry repoName t digest auth size with
        url := (manifestCall registry repoName t digest auth size).url ++ "#" ++ f } := by
  simp only [manifestCall, String.append_assoc]

/-- **A tag `t#f` publishes the manifest under `t`.**  Whatever the registry answers, a push of
a tag with a `#` sends exactly the requests a push of the tag before the `#` sends: `url.Parse`
reads the rest of the manifest's URL as a fragment, which a request does not carry. -/
theorem pushImage_tag_fragment (lib : GoLib) (codec : Codec) (srv : Server) {host name t f : String}
    (hhost : '/' ∉ host.toList ∧ '#' ∉ host.toList) (hname : '#' ∉ name.toList)
    (ht : '#' ∉ t.toList) (hf : f ≠ "" ∧ '%' ∉ f.toList) (content : List UInt8) (auth : String) :
    (pushImage lib codec srv (host ++ "/" ++ name) (t ++ "#" ++ f) content auth).1 =
      (pushImage lib codec srv (host ++ "/" ++ name) t content auth).1 := by
  have hurl : '#' ∉ (manifestCall host name t (digestOf codec content) auth
      content.length).url.toList := by
    simp only [manifestCall, String.toList, String.data_append, List.mem_append, not_or]
    exact ⟨⟨⟨⟨⟨by decide, hhost.2⟩, by decide⟩, hname⟩, by decide⟩, ht⟩
  simp only [pushImage, splitRepository_append hhost.1]
  rcases (uploadCall host name auth).send lib codec srv [] with ⟨sent₁, _ | r₁⟩
  · rfl
  · dsimp only
    split
    · rfl
    · rcases (blobCall r₁.location (digestOf codec content) auth content).send lib codec srv
        sent₁ with ⟨sent₂, _ | _⟩
      · rfl
      · simp only [Call.send, manifestCall_fragment, Call.run_fragment hurl hf]

theorem pushImage_tag_fragment_sample :
    ('/' ∉ "reg".toList ∧ '#' ∉ "reg".toList) ∧ '#' ∉ "app".toList ∧ '#' ∉ "v1".toList ∧
      ("x" ≠ "" ∧ '%' ∉ "x".toList) ∧
      (pushImage GoLib.minimal sampleCodec acceptingServer ("reg" ++ "/" ++ "app") ("v1" ++ "#" ++ "x")
          [1] "tok").1 =
        (pushImage GoLib.minimal sampleCodec acceptingServer ("reg" ++ "/" ++ "app") "v1" [1]
          "tok").1 :=
  have hhost : '/' ∉ "reg".toList ∧ '#' ∉ "reg".toList := by decide
  have hname : '#' ∉ "app".toList := by decide
  have ht : '#' ∉ "v1".toList := by decide
  have hf : "x" ≠ "" ∧ '%' ∉ "x".toList := by decide
  ⟨hhost, hname, ht, hf, pushImage_tag_fragment GoLib.minimal sampleCodec acceptingServer hhost hname
    ht hf [1] "tok"⟩

example : (pushImage GoLib.minimal sampleCodec acceptingServer "reg/app" "v1#x" [1, 2]
    "tok").1.map (·.url) = ["https://reg/v2/app/blobs/uploads/",
      "https://reg/v2/app/blobs/uploads/1?digest=sha256:0f", "https://reg/v2/app/manifests/v1"] := by
  decide

/-! ### What `publish` sends -/

/-- Every request `publish` sends carries, as its first header, the credential stored under
the registry part of the repository. -/
theorem runPublish_authorization (lib : GoLib) (codec : Codec) (srv : Server)
    (reference tag : String)
    (pkg : Except String (List UInt8)) (config : Option Config) :
    ∀ req ∈ (runPublish lib codec srv [reference] tag pkg config).1,
      ∃ a, GoMap.get (loadConfig config).auths (registryOf (splitReference reference tag).1) =
          some a ∧ req.headers.head? = some ("Authorization", "Basic " ++ a.auth) := by
  rcases hs : splitReference reference tag with ⟨repository, tag'⟩
  simp only [runPublish, hs]
  cases pkg with
  | error e => simp
  | ok content =>
    cases ha : GoMap.get (loadConfig config).auths (registryOf repository) with
    | none => simp
    | some a =>
      exact fun req hreq => ⟨a, rfl, pushImage_authorization lib codec srv _ _ _ _ req hreq⟩

/-- `publish` reads the config file only for the entry of the registry part of the
repository. -/
theorem runPublish_congr (lib : GoLib) (codec : Codec) (srv : Server) (reference tag : String)
    (pkg : Except String (List UInt8)) {config config' : Option Config}
    (h : GoMap.get (loadConfig config).auths (registryOf (splitReference reference tag).1) =
      GoMap.get (loadConfig config').auths (registryOf (splitReference reference tag).1)) :
    runPublish lib codec srv [reference] tag pkg config =
      runPublish lib codec srv [reference] tag pkg config' := by
  rcases hs : splitReference reference tag with ⟨repository, tag'⟩
  rw [hs] at h
  simp only [runPublish, hs, h]

/-! ### The config file across commands -/

/-- The two commands that share the config file, each with what it reads besides it. -/
inductive Command where
  | login (args stdin : List String) (username : String)
  | publish (srv : Server) (args : List String) (tag : String) (file : Except String (List UInt8))

/-- One command: the config file after it.  `login` saves the config it built, and writes
nothing when it fails; `publish` only reads the file. -/
def step (codec : Codec) (file : Option Config) : Command → Option Config
  | .login args stdin username =>
    match runLogin codec args stdin username file with
    | .ok config => some config
    | .error _ => file
  | .publish .. => file

/-- A run of commands from a config file. -/
def run (codec : Codec) (file : Option Config) (cmds : List Command) : Option Config :=
  cmds.foldl (step codec) file

/-- The token a command stores under `registry`: that of a login that succeeds with exactly
that registry argument. -/
def Command.storedToken (registry : String) : Command → Option String
  | .login [r] (token :: _) username => if r = registry ∧ username = "AWS" then some token else none
  | _ => none

/-- The token of the last login of a run to `registry`. -/
def lastToken (registry : String) (cmds : List Command) : Option String :=
  cmds.foldl (fun last c => (c.storedToken registry).or last) none

/-- One command changes the entry of a registry only by a login to exactly that registry. -/
theorem get_step (codec : Codec) (file : Option Config) (c : Command) (registry : String) :
    GoMap.get (loadConfig (step codec file c)).auths registry =
      ((c.storedToken registry).map (awsAuth codec)).or
        (GoMap.get (loadConfig file).auths registry) := by
  match c with
  | .publish .. => rfl
  | .login [r] (token :: _) username =>
    by_cases hu : username = "AWS"
    · by_cases hr : registry = r
      · simp [step, runLogin, Command.storedToken, storeCredentials, GoMap.get_set, hu, hr]
      · simp [step, runLogin, Command.storedToken, storeCredentials, GoMap.get_set, hu, hr,
          Ne.symm hr]
    · simp [step, runLogin, Command.storedToken, hu, fail]
  | .login [] _ _ | .login (_ :: _ :: _) _ _ | .login [_] [] _ => rfl

/-- **The config file after any run**: the entry of a registry is the credential of the last
login to exactly that registry name, or the entry the file had before. -/
theorem get_run (codec : Codec) (file : Option Config) (cmds : List Command) (registry : String) :
    GoMap.get (loadConfig (run codec file cmds)).auths registry =
      ((lastToken registry cmds).map (awsAuth codec)).or
        (GoMap.get (loadConfig file).auths registry) := by
  induction cmds using List.reverseRecOn with
  | nil => rfl
  | append_singleton cmds c ih =>
    simp only [run, lastToken, List.foldl_append, List.foldl_cons, List.foldl_nil] at ih ⊢
    rw [get_step, ih]
    cases c.storedToken registry <;> rfl

/-- **What `publish` sends after any run**: every request carries the credential of the last
login to exactly the registry part of the repository, or the one the file had before. -/
theorem publish_after_run (lib : GoLib) (codec : Codec) (srv : Server) (file : Option Config)
    (cmds : List Command) (reference tag : String) (pkg : Except String (List UInt8)) :
    ∀ req ∈ (runPublish lib codec srv [reference] tag pkg (run codec file cmds)).1,
      ∃ a, ((lastToken (registryOf (splitReference reference tag).1) cmds).map (awsAuth codec)).or
          (GoMap.get (loadConfig file).auths (registryOf (splitReference reference tag).1)) =
            some a ∧ req.headers.head? = some ("Authorization", "Basic " ++ a.auth) := by
  rw [← get_run]
  exact runPublish_authorization lib codec srv reference tag pkg _

theorem publish_after_run_sample :
    ∃ req ∈ (runPublish GoLib.minimal sampleCodec acceptingServer ["reg/app:v1"] "" (.ok [1])
        (run sampleCodec none [.login ["reg"] ["tok"] "AWS"])).1,
      ∃ a, ((lastToken (registryOf (splitReference "reg/app:v1" "").1)
          [.login ["reg"] ["tok"] "AWS"]).map (awsAuth sampleCodec)).or
          (GoMap.get (loadConfig none).auths (registryOf (splitReference "reg/app:v1" "").1)) =
            some a ∧ req.headers.head? = some ("Authorization", "Basic " ++ a.auth) :=
  ⟨(uploadCall "reg" "app" "AWS:tok").request, by decide,
    publish_after_run GoLib.minimal sampleCodec acceptingServer none [.login ["reg"] ["tok"] "AWS"]
      "reg/app:v1" "" (.ok [1]) _ (by decide)⟩

/-! ### A reference with a port -/

/-- Without `--tag`, a reference `host:port/path` splits at the port's `:`: the repository is
the host alone, and the tag is the rest. -/
theorem splitReference_port {host port path : String} (hhost : ':' ∉ host.toList)
    (hport : ':' ∉ port.toList) (hpath : ':' ∉ path.toList) :
    splitReference (host ++ ":" ++ port ++ "/" ++ path) "" = (host, port ++ "/" ++ path) := by
  have hrest : ':' ∉ (port ++ "/" ++ path).toList := by
    simpa [String.toList] using And.intro hport hpath
  have hsplit : (host ++ ":" ++ port ++ "/" ++ path).toList =
      host.toList ++ ':' :: (port ++ "/" ++ path).toList := by
    simp [String.toList]
  simp only [splitReference, if_pos rfl, hsplit, stringsSplit_append_cons hhost,
    stringsSplit_of_not_mem hrest]
  rfl

theorem registryOf_of_not_mem {host : String} (h : '/' ∉ host.toList) : registryOf host = host := by
  simp only [registryOf, stringsSplit_of_not_mem h]
  rfl

theorem registryOf_append {host : String} (h : '/' ∉ host.toList) (name : String) :
    registryOf (host ++ "/" ++ name) = host := by
  have hs : (host ++ "/" ++ name).toList = host.toList ++ '/' :: name.toList := by
    simp [String.toList]
  simp only [registryOf, hs, stringsSplit_append_cons h, List.headD_cons]
  rfl

/-- Without `--tag`, a reference `repository:tag` splits into the two. -/
theorem splitReference_tag {repository tag : String} (hrepo : ':' ∉ repository.toList)
    (htag : ':' ∉ tag.toList) : splitReference (repository ++ ":" ++ tag) "" = (repository, tag) := by
  have hs : (repository ++ ":" ++ tag).toList = repository.toList ++ ':' :: tag.toList := by
    simp [String.toList]
  simp only [splitReference, hs, stringsSplit_append_cons hrepo, stringsSplit_of_not_mem htag,
    if_true]
  rfl

/-- **A login to a registry with a port does not serve a publish to it.**  Without `--tag`,
`publish host:port/path` looks the credential up under `host` alone, so it does the same
whether or not `login host:port` ran just before. -/
theorem publish_after_login_port (lib : GoLib) (codec : Codec) (srv : Server)
    {host port path : String}
    (hhost : ':' ∉ host.toList ∧ '/' ∉ host.toList) (hport : ':' ∉ port.toList)
    (hpath : ':' ∉ path.toList) (stdin : List String) (username : String)
    (pkg : Except String (List UInt8)) (file : Option Config) :
    runPublish lib codec srv [host ++ ":" ++ port ++ "/" ++ path] "" pkg
        (step codec file (.login [host ++ ":" ++ port] stdin username)) =
      runPublish lib codec srv [host ++ ":" ++ port ++ "/" ++ path] "" pkg file := by
  have hne : host ++ ":" ++ port ≠ host := fun h => by
    have hlen := congrArg String.length h
    have hcolon : ":".length = 1 := rfl
    simp only [String.length_append] at hlen
    omega
  have hnone : Command.storedToken host (.login [host ++ ":" ++ port] stdin username) = none := by
    cases stdin <;> simp [Command.storedToken, hne]
  apply runPublish_congr
  rw [splitReference_port hhost.1 hport hpath, registryOf_of_not_mem hhost.2, get_step, hnone]
  rfl

theorem publish_after_login_port_sample :
    (':' ∉ "localhost".toList ∧ '/' ∉ "localhost".toList) ∧ ':' ∉ "5000".toList ∧
      ':' ∉ "app".toList ∧
      runPublish GoLib.minimal sampleCodec acceptingServer
          ["localhost" ++ ":" ++ "5000" ++ "/" ++ "app"] "" (.ok [1])
          (step sampleCodec none (.login ["localhost" ++ ":" ++ "5000"] ["tok"] "AWS")) =
        runPublish GoLib.minimal sampleCodec acceptingServer
          ["localhost" ++ ":" ++ "5000" ++ "/" ++ "app"] "" (.ok [1]) none :=
  have hhost : ':' ∉ "localhost".toList ∧ '/' ∉ "localhost".toList := by decide
  have hport : ':' ∉ "5000".toList := by decide
  have hpath : ':' ∉ "app".toList := by decide
  ⟨hhost, hport, hpath,
    publish_after_login_port GoLib.minimal sampleCodec acceptingServer hhost hport hpath ["tok"] "AWS"
      (.ok [1]) none⟩

example : runPublish GoLib.minimal sampleCodec acceptingServer ["localhost:5000/app"] "" (.ok [1])
    (step sampleCodec none (.login ["localhost:5000"] ["tok"] "AWS")) =
      ([], fail "no credentials found for localhost, please run \x27kro registry login\x27 first") := by
  decide

end Kro.Registry
