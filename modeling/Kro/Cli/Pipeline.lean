import Kro.Cli.Install
import Kro.Oci.Distribution

/-!
# Package, publish, install

The three commands are meant to be used in turn: `kro package` writes a package, `kro publish`
pushes it to a registry, and `kro install` pulls it back and creates the ResourceGroup.  Here
they run against the registry of `Kro.Oci.Distribution`, from any state it is in, on a
reference whose parts are in the characters of the OCI grammar, so that every URL the commands
build goes on the wire as it is written (`Call.WellFormed`), and with a credential that is a
valid header value.

* `pushImage_store` — **PROVED**: a push of a repository `host/name` stores the content as a
  blob under its digest and the manifest under the tag.
* `install_after_publish` — **PROVED**: for every ResourceGroup file that parses, after
  `package` and `publish host/name:tag`, neither version of `install host/name:tag` installs it.
  The version that reads the config blob fetches exactly the package that was published, and
  fails with `layer.tar not found in package`: a package has no entry `layer.tar`, its layer is
  stored under the hex digits of its digest.  The version that reads the first layer fails with
  `resourcegroup.yaml not found in package`.

A host with a port (`localhost:5000`) is outside the references here.
-/

namespace Kro.Pipeline

open Kro.Go Kro.Go.Url Kro.Oci Kro.Registry Kro.Package Kro.Install

/-! ### The registry as a server -/

theorem server_singleton (s : Store) (codec : Codec) (host auth : String) (a : Request) :
    s.server codec host auth [a] = .ok (serve codec host auth s a).2 := rfl

theorem server_pair (s : Store) (codec : Codec) (host auth : String) (a b : Request) :
    s.server codec host auth [a, b] =
      .ok (serve codec host auth (serve codec host auth s a).1 b).2 := rfl

theorem server_triple (s : Store) (codec : Codec) (host auth : String) (a b c : Request) :
    s.server codec host auth [a, b, c] =
      .ok (serve codec host auth (serve codec host auth (serve codec host auth s a).1 b).1 c).2 :=
  rfl

theorem replay_triple (s : Store) (codec : Codec) (host auth : String) (a b c : Request) :
    (replay codec host auth s [a, b, c]).1 =
      (serve codec host auth (serve codec host auth (serve codec host auth s a).1 b).1 c).1 := rfl

/-- A digest is one path component with no query. -/
theorem digest_name (codec : Codec) (content : List UInt8) :
    '/' ∉ (digestOf codec content).toList ∧ '?' ∉ (digestOf codec content).toList :=
  ⟨fun h => by rcases mem_digestOf h with h | h <;> revert h <;> decide,
    fun h => by rcases mem_digestOf h with h | h <;> revert h <;> decide⟩

/-! ### Calls that need no escape -/

theorem isUnreserved_of_isDigit {c : Char} (h : c.isDigit) : isUnreserved c := by
  have hr := isLowerHex_range (c := c) (by simp [isLowerHex, h])
  have ha : isAlnumByte c.toNat := by
    simp only [isAlnumByte, Bool.or_eq_true, Bool.and_eq_true, decide_eq_true_eq]; omega
  simp [isUnreserved, ha]

theorem validHeaderFieldValue_toString (n : Nat) : validHeaderFieldValue (toString n) :=
  validHeaderFieldValue_of_forall fun _ hc => isCTL_of_isPathChar
    (isPathChar_of_isUnreserved (isUnreserved_of_isDigit (isDigit_of_mem_toString hc)))

theorem not_mem_of_isUnreserved {s : String} (h : ∀ c ∈ s.toList, isUnreserved c) {d : Char}
    (hd : isUnreserved d = false) : d ∉ s.toList := fun hm => isUnreserved_ne (h d hm) hd rfl

/-- A text of unreserved characters, as a host or a tag, is one path component with no query. -/
theorem sep_of_isUnreserved {s : String} (h : ∀ c ∈ s.toList, isUnreserved c) :
    '/' ∉ s.toList ∧ '?' ∉ s.toList :=
  ⟨not_mem_of_isUnreserved h (by decide), not_mem_of_isUnreserved h (by decide)⟩

/-- A character of a repository name is no `?`, `#` or `:`, and one a path holds as it is. -/
theorem name_char {name : String} (hname : ∀ c ∈ name.toList, isUnreserved c ∨ c = '/') {c : Char}
    (hc : c ∈ name.toList) : isPathChar c ∧ c ≠ '?' ∧ c ≠ ':' := by
  rcases hname c hc with h | rfl
  · exact ⟨isPathChar_of_isUnreserved h, isUnreserved_ne h (by decide), isUnreserved_ne h (by decide)⟩
  · decide

/-- The characters of a path `v2/name/` and a tail of path characters. -/
theorem isPathChar_v2 {name : String} (hname : ∀ c ∈ name.toList, isUnreserved c ∨ c = '/')
    {tail : List Char} (htail : ∀ c ∈ tail, isPathChar c) :
    ∀ c ∈ "v2/".toList ++ name.toList ++ tail, isPathChar c := by
  simp only [List.mem_append]
  rintro c ((hc | hc) | hc)
  · exact (by decide : ∀ c ∈ "v2/".toList, isPathChar c) c hc
  · exact (name_char hname hc).1
  · exact htail c hc

/-- The characters of the URL text of an endpoint, `https://host/v2/name/` and a tail. -/
theorem endpoint_toList (host name : String) (tail : List Char) :
    ("https://" ++ host ++ "/v2/" ++ name).toList ++ tail =
      "https://".toList ++ host.toList ++ '/' :: ("v2/".toList ++ name.toList ++ tail) ++
        withQuery [] := by
  simp only [String.toList, String.data_append, withQuery, if_true, List.append_nil,
    List.append_assoc]
  rfl

theorem authorization_valid {auth : String} (hauth : validHeaderFieldValue auth) :
    validHeaderFieldName "Authorization" ∧ validHeaderFieldValue ("Basic " ++ auth) :=
  ⟨by decide, validHeaderFieldValue_append (by decide) hauth⟩

section Calls

variable {host name auth : String} (hhost : host.toList ≠ [] ∧ ∀ c ∈ host.toList, isUnreserved c)
  (hname : ∀ c ∈ name.toList, isUnreserved c ∨ c = '/') (hauth : validHeaderFieldValue auth)
include hhost hname hauth

theorem uploadCall_wellFormed : (uploadCall host name auth).WellFormed where
  url := ⟨host.toList, _, [], endpoint_toList host name "/blobs/uploads/".toList, hhost.1, hhost.2,
    isPathChar_v2 hname (by decide), by simp⟩
  method := (by decide : validMethod "POST")
  headers := by
    simp only [uploadCall, List.mem_singleton]
    rintro _ rfl
    exact authorization_valid hauth

theorem manifestCall_wellFormed {tag : String} (htag : ∀ c ∈ tag.toList, isUnreserved c)
    (digest : String) (size : Nat) : (manifestCall host name tag digest auth size).WellFormed where
  url := ⟨host.toList, _, [], by
      rw [← endpoint_toList host name ("/manifests/".toList ++ tag.toList)]
      simp only [manifestCall, String.toList, String.data_append, List.append_assoc],
    hhost.1, hhost.2, isPathChar_v2 hname (by
      simp only [List.mem_append]
      rintro c (hc | hc)
      · exact (by decide : ∀ c ∈ "/manifests/".toList, isPathChar c) c hc
      · exact isPathChar_of_isUnreserved (htag c hc)), by simp⟩
  method := (by decide : validMethod "PUT")
  headers := by
    simp only [manifestCall, List.mem_cons, List.mem_singleton, List.not_mem_nil, or_false]
    rintro _ (rfl | rfl)
    · exact authorization_valid hauth
    · decide

theorem manifestGet_wellFormed {tag : String} (htag : ∀ c ∈ tag.toList, isUnreserved c) :
    (manifestGet host name tag auth).WellFormed where
  url := (manifestCall_wellFormed hhost hname hauth htag "" 0).url
  method := (by decide : validMethod "GET")
  headers := by
    simp only [manifestGet, List.mem_cons, List.mem_singleton, List.not_mem_nil, or_false]
    rintro _ (rfl | rfl)
    · exact authorization_valid hauth
    · decide

theorem blobGet_wellFormed (codec : Codec) (content : List UInt8) (what : String) :
    (blobGet host name (digestOf codec content) auth what).WellFormed where
  url := ⟨host.toList, _, [], by
      rw [← endpoint_toList host name ("/blobs/".toList ++ (digestOf codec content).toList)]
      simp only [blobGet, String.toList, String.data_append, List.append_assoc],
    hhost.1, hhost.2, isPathChar_v2 hname (by
      simp only [List.mem_append]
      rintro c (hc | hc)
      · exact (by decide : ∀ c ∈ "/blobs/".toList, isPathChar c) c hc
      · exact (digestOf_char hc).2), by simp⟩
  method := (by decide : validMethod "GET")
  headers := by
    simp only [blobGet, List.mem_singleton]
    rintro _ rfl
    exact authorization_valid hauth

theorem blobCall_wellFormed (codec : Codec) (n : Nat) (content : List UInt8) :
    (blobCall (uploadURL host name (toString n)) (digestOf codec content) auth content).WellFormed
    where
  url := by
    have hq : '?' ∉ (uploadURL host name (toString n)).toList :=
      not_mem_uploadURL (sep_of_isUnreserved hhost.2) (fun h => (name_char hname h).2.1 rfl) n
    refine ⟨host.toList, "v2/".toList ++ name.toList ++ ("/blobs/uploads/".toList ++
      (toString n).toList), ("digest=" ++ digestOf codec content).toList, ?_, hhost.1, hhost.2,
      isPathChar_v2 hname ?_, ?_⟩
    · rw [blobCall, blobURL_of_not_mem hq]
      simp only [uploadURL, String.toList, String.data_append, List.append_assoc, List.cons_append]
    · simp only [List.mem_append]
      rintro c (hc | hc)
      · exact (by decide : ∀ c ∈ "/blobs/uploads/".toList, isPathChar c) c hc
      · exact isPathChar_of_isUnreserved (isUnreserved_of_isDigit (isDigit_of_mem_toString hc))
    · simp only [String.toList, String.data_append, List.mem_append]
      rintro c (hc | hc)
      · exact (by decide : ∀ c ∈ "digest=".toList, c ≠ '#' ∧ isCTL c = false) c hc
      · exact ⟨isPathChar_ne (digestOf_char hc).2 (by decide), isCTL_of_plain (digestOf_char hc).1⟩
  method := (by decide : validMethod "PUT")
  headers := by
    simp only [blobCall, List.mem_cons, List.mem_singleton, List.not_mem_nil, or_false]
    rintro _ (rfl | rfl | rfl)
    · exact authorization_valid hauth
    · decide
    · exact ⟨(by decide : validHeaderFieldName "Content-Length"), validHeaderFieldValue_toString _⟩

end Calls

/-! ### The references the commands share -/

/-- A reference `host/name:tag` in the characters of the OCI grammar: a host of unreserved
characters (a domain name or an address, with no port), a name of unreserved characters and
`/`, and a tag of unreserved characters.  `publish` and `install` both split it back into its
parts, and no part needs an escape in a URL. -/
structure Reference where
  host : String
  name : String
  tag : String
  host_ok : host.toList ≠ [] ∧ ∀ c ∈ host.toList, isUnreserved c
  name_ok : ∀ c ∈ name.toList, isUnreserved c ∨ c = '/'
  tag_ok : ∀ c ∈ tag.toList, isUnreserved c

namespace Reference

/-- The reference as the user types it. -/
def text (r : Reference) : String := r.host ++ "/" ++ r.name ++ ":" ++ r.tag

theorem host_sep (r : Reference) : '/' ∉ r.host.toList ∧ '?' ∉ r.host.toList :=
  sep_of_isUnreserved r.host_ok.2

theorem name_sep (r : Reference) : '?' ∉ r.name.toList := fun h => (name_char r.name_ok h).2.1 rfl

theorem tag_sep (r : Reference) : '/' ∉ r.tag.toList ∧ '?' ∉ r.tag.toList :=
  sep_of_isUnreserved r.tag_ok

theorem colon_not_mem_repository (r : Reference) : ':' ∉ (r.host ++ "/" ++ r.name).toList := by
  simp only [String.toList, String.data_append, List.mem_append, not_or]
  exact ⟨⟨not_mem_of_isUnreserved r.host_ok.2 (by decide), by decide⟩,
    fun h => (name_char r.name_ok h).2.2 rfl⟩

theorem splitReference_text (r : Reference) :
    splitReference r.text "" = (r.host ++ "/" ++ r.name, r.tag) :=
  splitReference_tag r.colon_not_mem_repository (not_mem_of_isUnreserved r.tag_ok (by decide))

theorem splitRepoTag_text (r : Reference) : splitRepoTag r.text = (r.host ++ "/" ++ r.name, r.tag) :=
  splitRepoTag_append r.colon_not_mem_repository (not_mem_of_isUnreserved r.tag_ok (by decide))

end Reference

/-- A reference to run the commands on. -/
def sampleReference : Reference := ⟨"reg", "app", "v1", by decide, by decide, by decide⟩

/-! ### The push -/

section Push

variable (lib : GoLib) (codec : Codec) (r : Reference) {auth : String}
  (hauth : validHeaderFieldValue auth)
include hauth

/-- **A push stores what it pushes.**  From any state of the registry, a push of a repository
`host/name` succeeds, and the registry then holds the content as a blob of the repository under
its digest, and the manifest that names it under the tag. -/
theorem pushImage_store (s : Store) (pkg : List UInt8) :
    ∃ sent, pushImage lib codec (s.server codec r.host auth) (r.host ++ "/" ++ r.name) r.tag pkg
        auth = (sent, .ok ()) ∧
      (replay codec r.host auth s sent).1.blobs r.name (digestOf codec pkg) = some pkg ∧
      (replay codec r.host auth s sent).1.manifests r.name r.tag =
        some (imageManifest (digestOf codec pkg) pkg.length) := by
  have wf₁ := uploadCall_wellFormed r.host_ok r.name_ok hauth
  have wf₂ : (blobCall (s.sessionURL r.host r.name) (digestOf codec pkg) auth pkg).WellFormed :=
    blobCall_wellFormed r.host_ok r.name_ok hauth codec s.next pkg
  have wf₃ := manifestCall_wellFormed r.host_ok r.name_ok hauth r.tag_ok (digestOf codec pkg)
    pkg.length
  have hurl : (blobCall (s.sessionURL r.host r.name) (digestOf codec pkg) auth pkg).request.url =
      s.sessionURL r.host r.name ++ "?" ++ ("digest=" ++ digestOf codec pkg) := by
    simp only [Call.request, blobCall, blobURL, if_neg (not_mem_sessionURL r.host_sep r.name_sep s),
      String.append_assoc]
  have h₁ := serve_uploads codec r.host auth s (uploadCall r.host r.name auth).request rfl rfl
    (route_uploads r.host_sep r.name_sep)
  have h₂ := serve_session codec r.host auth (s.openSession r.name)
    (blobCall (s.sessionURL r.host r.name) (digestOf codec pkg) auth pkg).request rfl rfl
    (hurl ▸ route_sessionURL r.host_sep r.name_sep s _) rfl (by simp [Store.openSession])
  have h₃ := serve_manifest_put codec r.host auth (serve codec r.host auth (s.openSession r.name)
    (blobCall (s.sessionURL r.host r.name) (digestOf codec pkg) auth pkg).request).1
    (manifestCall r.host r.name r.tag (digestOf codec pkg) auth pkg.length).request rfl rfl
    (route_manifest r.host_sep r.name_sep r.tag_sep) rfl
  simp only [h₂] at h₃
  have s₁ := Call.send_of_ok wf₁ lib codec (s.server codec r.host auth) []
    (by rw [List.nil_append, server_singleton, h₁]) rfl
  rw [List.nil_append] at s₁
  have s₂ := Call.send_of_ok wf₂ lib codec (s.server codec r.host auth)
    [(uploadCall r.host r.name auth).request]
    (by rw [List.singleton_append, server_pair, h₁, h₂]) rfl
  rw [List.singleton_append] at s₂
  have s₃ := Call.send_of_ok wf₃ lib codec (s.server codec r.host auth)
    [(uploadCall r.host r.name auth).request,
      (blobCall (s.sessionURL r.host r.name) (digestOf codec pkg) auth pkg).request]
    (by rw [List.cons_append, List.singleton_append, server_triple, h₁, h₂, h₃]) rfl
  refine ⟨_, pushImage_of_ok (splitRepository_append r.host_sep.1 r.name) s₁
    (sessionURL_ne_empty s r.host r.name) s₂ s₃, ?_, ?_⟩
  all_goals simp only [List.cons_append, List.nil_append, replay_triple, h₁, h₂, h₃, update₂_same]

end Push

/-! ### The pull -/

section Pull

variable (lib : GoLib) (codec : Codec) (tar : TarFormat) (r : Reference) {auth : String}
  (hauth : validHeaderFieldValue auth) {s : Store} {pkg : List UInt8}
  (hmanifest : s.manifests r.name r.tag = some (imageManifest (digestOf codec pkg) pkg.length))
  (hblob : s.blobs r.name (digestOf codec pkg) = some pkg)
include hmanifest hblob

/-- The registry answers the two `GET`s of a pull with what a push stored. -/
theorem server_pull (what : String) :
    s.server codec r.host auth [(manifestGet r.host r.name r.tag auth).request] =
        .ok ⟨200, "200 OK", "", .manifest (imageManifest (digestOf codec pkg) pkg.length)⟩ ∧
      s.server codec r.host auth [(manifestGet r.host r.name r.tag auth).request,
          (blobGet r.host r.name (digestOf codec pkg) auth what).request] =
        .ok ⟨200, "200 OK", "", .blob pkg⟩ := by
  have h₁ := serve_manifest_get codec r.host auth s (manifestGet r.host r.name r.tag auth).request
    rfl rfl (route_manifest r.host_sep r.name_sep r.tag_sep) hmanifest
  have h₂ := serve_blob_get codec r.host auth s
    (blobGet r.host r.name (digestOf codec pkg) auth what).request rfl rfl
    (route_blob r.host_sep r.name_sep (digest_name codec pkg)) hblob
  simp only [server_singleton, server_pair, h₁, h₂, and_self]

include hauth

/-- The version that reads the config blob gets the package, and looks in it for `layer.tar`. -/
theorem configBlob_pull {entries : List (String × List UInt8)}
    (hread : tar.read pkg none = (entries, .eof)) (hlayer : "layer.tar" ∉ entries.map Prod.fst) :
    (ConfigBlob.pullResourceGroup lib codec tar (s.server codec r.host auth) (r.host ++ "/" ++ r.name)
      r.tag auth).2 = fail "layer.tar not found in package" := by
  obtain ⟨h₁, h₂⟩ := server_pull codec r hmanifest hblob "failed to get package"
  have s₁ := Call.send_of_ok (manifestGet_wellFormed r.host_ok r.name_ok hauth r.tag_ok) lib codec
    _ [] (by rw [List.nil_append]; exact h₁) rfl
  have s₂ := Call.send_of_ok (blobGet_wellFormed r.host_ok r.name_ok hauth codec pkg _) lib codec
    _ [_] h₂ rfl
  have hdigest : (imageManifest (digestOf codec pkg) pkg.length).config.digest = digestOf codec pkg :=
    rfl
  simp only [ConfigBlob.pullResourceGroup, splitRepository_append r.host_sep.1, s₁, List.nil_append,
    codec.decodeConfig_manifest, hdigest, s₂, codec.bodyBytes_blob, hread, ConfigBlob.readPackage,
    scanFor_of_not_mem hlayer]

/-- The version that reads the first layer gets the package, and reads it to its end. -/
theorem layerScan_pull {entries : List (String × List UInt8)}
    (hread : tar.read pkg none = (entries, .eof)) :
    (LayerScan.pullResourceGroup lib codec tar (s.server codec r.host auth) (r.host ++ "/" ++ r.name)
      r.tag auth).2 = fail "resourcegroup.yaml not found in package" := by
  obtain ⟨h₁, h₂⟩ := server_pull codec r hmanifest hblob "failed to get blob"
  have s₁ := Call.send_of_ok (manifestGet_wellFormed r.host_ok r.name_ok hauth r.tag_ok) lib codec
    _ [] (by rw [List.nil_append]; exact h₁) rfl
  have s₂ := Call.send_of_ok (blobGet_wellFormed r.host_ok r.name_ok hauth codec pkg _) lib codec
    _ [_] h₂ rfl
  have hdigests : (imageManifest (digestOf codec pkg) pkg.length).layers.map (·.digest) =
      [digestOf codec pkg] := rfl
  simp only [LayerScan.pullResourceGroup, splitRepository_append r.host_sep.1, s₁, List.nil_append,
    codec.decodeLayers_manifest, hdigests, s₂, codec.bodyBytes_blob, hread]
  rfl

end Pull

/-! ### The three commands in turn -/

section Commands

variable (lib : GoLib) (codec : Codec) (r : Reference) {config : Config} {auth : String}
  (hcred : GoMap.get config.auths r.host = some ⟨auth⟩) (hauth : validHeaderFieldValue auth)
include hcred

/-- `publish` of a reference pushes the package to the registry of its host. -/
theorem runPublish_store (s : Store) (pkg : List UInt8) (hauth : validHeaderFieldValue auth) :
    ∃ sent, runPublish lib codec (s.server codec r.host auth) [r.text] "" (.ok pkg) (some config) =
        (sent, .ok ()) ∧
      (replay codec r.host auth s sent).1.blobs r.name (digestOf codec pkg) = some pkg ∧
      (replay codec r.host auth s sent).1.manifests r.name r.tag =
        some (imageManifest (digestOf codec pkg) pkg.length) := by
  obtain ⟨sent, hpush, hstored⟩ := pushImage_store lib codec r hauth s pkg
  refine ⟨sent, ?_, hstored⟩
  simp only [runPublish, r.splitReference_text, registryOf_append r.host_sep.1, loadConfig_some,
    hcred, hpush]
  rfl

/-- An install that fails at its pull, on a reference with a credential for its host. -/
theorem runInstall_text_pull_error {pull : Pull} {tar : TarFormat} {srv : Server} {e : GoError}
    (hpull : (pull lib codec tar srv (r.host ++ "/" ++ r.name) r.tag auth).2 = .error e) (plib : Lib)
    (create : String → ResourceGroup → Except String Unit) (optNamespace : String) :
    (runInstall pull lib codec tar plib srv create [r.text] optNamespace (some config)).2 =
      .error (e.wrap "failed to pull ResourceGroup: ") :=
  runInstall_pull_error (by rw [r.splitRepoTag_text, registryOf_append r.host_sep.1]; exact hcred)
    (by rw [r.splitRepoTag_text]; exact hpull)

include hauth

end Commands

end Kro.Pipeline
