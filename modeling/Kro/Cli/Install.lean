import Kro.Cli.Registry
import Kro.Cli.Package

/-!
# `kro install`

`install` pulls a package from a registry and creates the ResourceGroup it holds in the
cluster.  The source has two versions of the command.  Their `runInstall` is the same: it
splits the reference at its first `:`, looks the credential up under the part of the
repository before the first `/`, pulls, parses and creates.  They differ in
`pullResourceGroup`, which fetches the manifest of the tag and then one blob, each with a
`Call` (`http.NewRequest`, `client.Do` and the status check), and reads the blob as a tar:

* `LayerScan` fetches the blob of the manifest's first layer and reads it, printing each
  entry's name and, for an entry that is not `resourcegroup.yaml`, its content, which it
  copies out with `io.Copy`.  The loop keeps nothing it reads, so it ends at the end of the
  archive or at an error: `LayerScan.runInstall_never_ok` — **PROVED**: this version never
  installs anything.
* `ConfigBlob` fetches the blob of the manifest's config, looks in it for an entry `layer.tar`,
  and reads the data of that entry as a tar in turn, for its entry `resourcegroup.yaml`.  The
  inner reader reads what the outer one gives it: the whole entry, or, if the package is cut
  inside it, the bytes before the cut and then the error.

The cluster's `Create` is a parameter, and so are the registry and the libraries.  What the
commands print is left out.
-/

namespace Kro.Install

open Kro.Go Kro.Oci Kro.Registry Kro.Package

/-- The `GET` of the manifest of a tag. -/
def manifestGet (registry repoName tag auth : String) : Call :=
  ⟨"GET", "https://" ++ registry ++ "/v2/" ++ repoName ++ "/manifests/" ++ tag,
    [("Authorization", "Basic " ++ auth), ("Accept", "application/vnd.oci.image.manifest.v1+json")],
    .empty, 200, "failed to get manifest"⟩

/-- The `GET` of a blob, with the text of its status error. -/
def blobGet (registry repoName digest auth what : String) : Call :=
  ⟨"GET", "https://" ++ registry ++ "/v2/" ++ repoName ++ "/blobs/" ++ digest,
    [("Authorization", "Basic " ++ auth)], .empty, 200, what⟩

/-- The split of `runInstall`: the reference up to its first `:` is the repository, and the text
up to the next `:` the tag, `latest` if there is none. -/
def splitRepoTag (repo : String) : String × String :=
  let parts := stringsSplit ':' repo.toList
  (String.mk (parts.headD []), match parts with
    | _ :: tag :: _ => String.mk tag
    | _ => "latest")

theorem splitRepoTag_append {repository tag : String} (hrepo : ':' ∉ repository.toList)
    (htag : ':' ∉ tag.toList) : splitRepoTag (repository ++ ":" ++ tag) = (repository, tag) := by
  have hs : (repository ++ ":" ++ tag).toList = repository.toList ++ ':' :: tag.toList := by
    simp [String.toList]
  simp only [splitRepoTag, hs, stringsSplit_append_cons hrepo, stringsSplit_of_not_mem htag]
  rfl

/-- A version of `pullResourceGroup`: from the repository, the tag and the credential, the
requests sent and the content of `resourcegroup.yaml`. -/
def Pull : Type :=
  GoLib → Codec → TarFormat → Server → String → String → String →
    List Request × Except GoError (List UInt8)

/-- `runInstall`, with the version's `pullResourceGroup`: the requests sent and the
ResourceGroup created in the namespace. -/
def runInstall (pull : Pull) (stdlib : GoLib) (codec : Codec) (tar : TarFormat) (lib : Lib)
    (srv : Server)
    (create : String → ResourceGroup → Except String Unit) (args : List String)
    (optNamespace : String) (config : Option Config) : List Request × Except GoError ResourceGroup :=
  match args with
  | [repo] =>
    let (repository, tag) := splitRepoTag repo
    let registry := registryOf repository
    match GoMap.get (loadConfig config).auths registry with
    | none =>
      ([], fail ("no credentials found for " ++ registry ++
        ", please run \x27kro registry login\x27 first"))
    | some auth =>
      let (sent, pulled) := pull stdlib codec tar srv repository tag auth.auth
      match pulled with
      | .error e => (sent, .error (e.wrap "failed to pull ResourceGroup: "))
      | .ok content =>
        match lib.parseResourceGroup content with
        | .error e => (sent, fail ("failed to parse ResourceGroup: " ++ e))
        | .ok rg =>
          match create optNamespace rg with
          | .error e => (sent, fail ("failed to create ResourceGroup: " ++ e))
          | .ok () => (sent, .ok rg)
  | _ => ([], fail "repository URL is required")

/-- An install succeeds only if its pull does. -/
theorem runInstall_ne_ok {pull : Pull} {stdlib : GoLib} {codec : Codec} {tar : TarFormat}
    {srv : Server}
    (hpull : ∀ repository tag auth content,
      (pull stdlib codec tar srv repository tag auth).2 ≠ .ok content)
    (lib : Lib) (create : String → ResourceGroup → Except String Unit) (args : List String)
    (optNamespace : String) (config : Option Config) (rg : ResourceGroup) :
    (runInstall pull stdlib codec tar lib srv create args optNamespace config).2 ≠ .ok rg := by
  unfold runInstall
  split
  · rename_i repo
    rcases splitRepoTag repo with ⟨repository, tag⟩
    dsimp only
    split
    · simp [fail]
    · rename_i auth _
      rcases hp : pull stdlib codec tar srv repository tag auth.auth with ⟨sent, _ | content⟩
      · simp
      · exact absurd (congrArg Prod.snd hp) (hpull _ _ _ content)
  · simp [fail]

/-- An install that fails at its pull reports the pull's error. -/
theorem runInstall_pull_error {pull : Pull} {stdlib : GoLib} {codec : Codec} {tar : TarFormat}
    {lib : Lib} {srv : Server} {create : String → ResourceGroup → Except String Unit} {repo : String}
    {optNamespace : String} {config : Option Config} {auth : Auth}
    (hauth : GoMap.get (loadConfig config).auths (registryOf (splitRepoTag repo).1) = some auth)
    {e : GoError}
    (hpull : (pull stdlib codec tar srv (splitRepoTag repo).1 (splitRepoTag repo).2 auth.auth).2 =
      .error e) :
    (runInstall pull stdlib codec tar lib srv create [repo] optNamespace config).2 =
      .error (e.wrap "failed to pull ResourceGroup: ") := by
  simp only [runInstall, hauth]
  rw [hpull]

/-! ### The version that reads the first layer -/

namespace LayerScan

/-- How the loop over the entries of the layer ends, as its error: the loop keeps nothing it
reads.  An error inside the data of an entry is `io.Copy`'s if the entry is not
`resourcegroup.yaml`, and the next `Next`'s, which skips the data, if it is. -/
def layerError : TarEnd → String
  | .eof => "resourcegroup.yaml not found in package"
  | .header e => "failed to read tar: " ++ e
  | .data name _ e =>
    if name ≠ "resourcegroup.yaml" then "failed to read resourcegroup.yaml: " ++ e
    else "failed to read tar: " ++ e

/-- `pullResourceGroup` of the version that reads the manifest's first layer. -/
def pullResourceGroup : Pull := fun stdlib codec tar srv repository tag auth =>
  let (registry, repoName) := splitRepository repository
  match (manifestGet registry repoName tag auth).send stdlib codec srv [] with
  | (sent, .error e) => (sent, .error e)
  | (sent, .ok resp) =>
    match codec.decodeLayers resp.body with
    | .error e => (sent, fail ("failed to decode manifest: " ++ e))
    | .ok [] => (sent, fail "no layers found in manifest")
    | .ok (layerDigest :: _) =>
      match (blobGet registry repoName layerDigest auth "failed to get blob").send stdlib codec
        srv sent with
      | (sent, .error e) => (sent, .error e)
      | (sent, .ok resp) => (sent, fail (layerError (tar.read (codec.bodyBytes resp.body) none).2))

/-- `runInstall` of this version. -/
def runInstall (stdlib : GoLib) (codec : Codec) (tar : TarFormat) (lib : Lib) (srv : Server)
    (create : String → ResourceGroup → Except String Unit) (args : List String)
    (optNamespace : String) (config : Option Config) : List Request × Except GoError ResourceGroup :=
  Kro.Install.runInstall pullResourceGroup stdlib codec tar lib srv create args optNamespace config

/-- Whatever the registry answers, this pull never returns the file. -/
theorem pullResourceGroup_ne_ok (stdlib : GoLib) (codec : Codec) (tar : TarFormat) (srv : Server)
    (repository tag auth : String) (content : List UInt8) :
    (pullResourceGroup stdlib codec tar srv repository tag auth).2 ≠ .ok content := by
  simp only [pullResourceGroup]
  repeat' split
  all_goals simp [fail]

/-- **This version of `install` never installs anything**: whatever the registry, the package,
the config and the cluster, it ends in an error. -/
theorem runInstall_never_ok (stdlib : GoLib) (codec : Codec) (tar : TarFormat) (lib : Lib)
    (srv : Server) (create : String → ResourceGroup → Except String Unit) (args : List String)
    (optNamespace : String) (config : Option Config) (rg : ResourceGroup) :
    (runInstall stdlib codec tar lib srv create args optNamespace config).2 ≠ .ok rg :=
  Kro.Install.runInstall_ne_ok (pullResourceGroup_ne_ok stdlib codec tar srv) lib create args
    optNamespace config rg

end LayerScan

/-! ### The version that reads the config blob -/

namespace ConfigBlob

/-- The loop over the entries of `layer.tar`: the content of the first `resourcegroup.yaml`, or
the error of how the layer ended before it; an error inside the data of `resourcegroup.yaml` is
`io.Copy`'s. -/
def readLayer (read : List (String × List UInt8) × TarEnd) : Except GoError (List UInt8) :=
  match scanFor "resourcegroup.yaml" read with
  | .ok content => .ok content
  | .error .eof => fail "resourcegroup.yaml not found in layer"
  | .error (.header e) => fail ("failed to read layer: " ++ e)
  | .error (.data name _ e) =>
    if name = "resourcegroup.yaml" then fail ("failed to read resourcegroup.yaml: " ++ e)
    else fail ("failed to read layer: " ++ e)

/-- The loop over the entries of the package, for the first `layer.tar`, and then `readLayer`
over the stream of its data: the whole entry, or the bytes of it before the error that cut the
package short. -/
def readPackage (tar : TarFormat) (read : List (String × List UInt8) × TarEnd) :
    Except GoError (List UInt8) :=
  match scanFor "layer.tar" read with
  | .ok layer => readLayer (tar.read layer none)
  | .error .eof => fail "layer.tar not found in package"
  | .error (.header e) => fail ("failed to read package: " ++ e)
  | .error (.data name got e) =>
    if name = "layer.tar" then readLayer (tar.read got (some e))
    else fail ("failed to read package: " ++ e)

/-- `pullResourceGroup` of the version that reads the blob the manifest's config names. -/
def pullResourceGroup : Pull := fun stdlib codec tar srv repository tag auth =>
  let (registry, repoName) := splitRepository repository
  match (manifestGet registry repoName tag auth).send stdlib codec srv [] with
  | (sent, .error e) => (sent, .error e)
  | (sent, .ok resp) =>
    match codec.decodeConfig resp.body with
    | .error e => (sent, fail ("failed to decode manifest: " ++ e))
    | .ok packageDigest =>
      match (blobGet registry repoName packageDigest auth "failed to get package").send stdlib
        codec srv sent with
      | (sent, .error e) => (sent, .error e)
      | (sent, .ok resp) => (sent, readPackage tar (tar.read (codec.bodyBytes resp.body) none))

/-- `runInstall` of this version. -/
def runInstall (stdlib : GoLib) (codec : Codec) (tar : TarFormat) (lib : Lib) (srv : Server)
    (create : String → ResourceGroup → Except String Unit) (args : List String)
    (optNamespace : String) (config : Option Config) : List Request × Except GoError ResourceGroup :=
  Kro.Install.runInstall pullResourceGroup stdlib codec tar lib srv create args optNamespace config

end ConfigBlob

end Kro.Install
