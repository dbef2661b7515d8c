import Kro.Oci.Wire
import Kro.Go.Tar

/-!
# `kro package`

`runPackage` reads a ResourceGroup file, checks that it parses, and writes a tar of three
entries: `manifest.json`, the image config under the hex digits of its digest, and the layer
under the hex digits of its digest.  The layer is itself a tar, of one entry
`resourcegroup.yaml` that holds the file.

* `runPackage_read` — **PROVED**: read back, a package is exactly those three entries, to the
  end of the archive, and its layer reads back as the file under `resourcegroup.yaml`.

The YAML and JSON libraries are a parameter (`Lib`), and so is the time `time.Now()` gives.
-/

namespace Kro.Package

open Kro.Go Kro.Oci

/-- `v1alpha1.ResourceGroup`, with the one field `runPackage` reads. -/
structure ResourceGroup where
  name : String
  deriving Repr, DecidableEq

/-- The image config `runPackage` marshals: `v1.Image`, with the fields it sets. -/
structure ImageConfig where
  created : String
  labels : GoMap String
  rootfsType : String
  diffIDs : List String
  deriving Repr, DecidableEq

/-- What `package` and `install` take from the YAML and JSON libraries. -/
structure Lib where
  /-- `yaml.UnmarshalStrict` into a `ResourceGroup`. -/
  parseResourceGroup : List UInt8 → Except String ResourceGroup
  /-- `json.Marshal` of the image config. -/
  imageJSON : ImageConfig → List UInt8
  /-- `json.Marshal` of a manifest. -/
  manifestJSON : Manifest → List UInt8

/-- `createLayer`: the digest, the size and the bytes of a tar of one file. -/
def createLayer (codec : Codec) (tar : TarFormat) (filename : String) (content : List UInt8) :
    String × Nat × List UInt8 :=
  let layerContent := tar.write [(filename, content)]
  (digestOf codec layerContent, layerContent.length, layerContent)

/-- `writeTarFile`: one more entry for the writer, which writes the archive when it is closed. -/
def writeTarFile (written : List (String × List UInt8)) (name : String) (content : List UInt8) :
    List (String × List UInt8) :=
  written ++ [(name, content)]

/-- The image config of a package. -/
def imageConfig (now name layerDigest : String) : ImageConfig :=
  ⟨now, [("kro.run/type", "resourcegroup"), ("kro.run/name", name)], "layers", [layerDigest]⟩

/-- The manifest of a package. -/
def packageManifest (configDigest : String) (configSize : Nat) (layerDigest : String)
    (layerSize : Nat) : Manifest :=
  ⟨2, "", ⟨"application/vnd.oci.image.config.v1+json", configSize, configDigest⟩,
    [⟨"application/vnd.oci.image.layer.v1.tar", layerSize, layerDigest⟩]⟩

/-- `runPackage`: the bytes it writes, from the input file (or the error reading it) and the
time. -/
def runPackage (codec : Codec) (tar : TarFormat) (lib : Lib) (now : String)
    (input : Except String (List UInt8)) : Except GoError (List UInt8) :=
  match input with
  | .error e => fail ("failed to read input file: " ++ e)
  | .ok content =>
    match lib.parseResourceGroup content with
    | .error e => fail ("failed to parse ResourceGroup: " ++ e)
    | .ok rg =>
      let (layerDigest, size, layer) := createLayer codec tar "resourcegroup.yaml" content
      let configJson := lib.imageJSON (imageConfig now rg.name layerDigest)
      let configDigest := digestOf codec configJson
      let manifest := packageManifest configDigest configJson.length layerDigest size
      let written := writeTarFile [] "manifest.json" (lib.manifestJSON manifest)
      let written := writeTarFile written (trimPrefix "sha256:" configDigest) configJson
      let written := writeTarFile written (trimPrefix "sha256:" layerDigest) layer
      .ok (tar.write written)

/-! ### What a package holds -/

/-- The layer of a package: a tar of the file as `resourcegroup.yaml`. -/
def layerOf (tar : TarFormat) (content : List UInt8) : List UInt8 :=
  tar.write [("resourcegroup.yaml", content)]

/-- The entries `runPackage` writes for a file that parses. -/
def packageEntries (codec : Codec) (tar : TarFormat) (lib : Lib) (now : String)
    (content : List UInt8) (rg : ResourceGroup) : List (String × List UInt8) :=
  let layer := layerOf tar content
  let configJson := lib.imageJSON (imageConfig now rg.name (digestOf codec layer))
  [("manifest.json", lib.manifestJSON (packageManifest (digestOf codec configJson)
      configJson.length (digestOf codec layer) layer.length)),
    (codec.sha256Hex configJson, configJson), (codec.sha256Hex layer, layer)]

/-- A name with a character that is not a hex digit is no digest's hex digits. -/
theorem sha256Hex_ne (codec : Codec) {name : String} {c : Char} (hc : c ∈ name.toList)
    (hhex : isLowerHex c = false) (bytes : List UInt8) : codec.sha256Hex bytes ≠ name := by
  rintro rfl
  exact absurd (codec.sha256Hex_hex bytes c hc) (by simp [hhex])

/-- A package has no entry `layer.tar`: its entries are `manifest.json` and two digests. -/
theorem layer_tar_not_mem (codec : Codec) (tar : TarFormat) (lib : Lib) (now : String)
    (content : List UInt8) (rg : ResourceGroup) :
    "layer.tar" ∉ (packageEntries codec tar lib now content rg).map Prod.fst := by
  have hl : 'l' ∈ "layer.tar".toList := by decide
  have hne := sha256Hex_ne codec hl rfl
  simp only [packageEntries, List.map_cons, List.map_nil, List.mem_cons, List.not_mem_nil, or_false,
    not_or]
  exact ⟨by decide, (hne _).symm, (hne _).symm⟩

theorem runPackage_eq (codec : Codec) (tar : TarFormat) (lib : Lib) (now : String)
    {content : List UInt8} {rg : ResourceGroup} (h : lib.parseResourceGroup content = .ok rg) :
    runPackage codec tar lib now (.ok content) =
      .ok (tar.write (packageEntries codec tar lib now content rg)) := by
  simp [runPackage, h, createLayer, writeTarFile, packageEntries, layerOf, digestOf]

/-- Libraries for the samples: a file parses unless it is empty, and the JSON is left empty. -/
def sampleLib : Lib where
  parseResourceGroup := fun
    | [] => .error "empty ResourceGroup"
    | _ => .ok ⟨"demo"⟩
  imageJSON := fun _ => []
  manifestJSON := fun _ => []

/-- **What a package holds.**  Read back, a package is exactly three entries, to its end:
`manifest.json`, the image config under the hex digits of its digest, and the layer under the
hex digits of its digest; the layer reads back as the file under `resourcegroup.yaml`. -/
theorem runPackage_read (codec : Codec) (tar : TarFormat) (lib : Lib) (now : String)
    (content P : List UInt8) (h : runPackage codec tar lib now (.ok content) = .ok P) :
    ∃ manifestJson configJson,
      tar.read P none = ([("manifest.json", manifestJson), (codec.sha256Hex configJson, configJson),
        (codec.sha256Hex (layerOf tar content), layerOf tar content)], .eof) ∧
      tar.read (layerOf tar content) none = ([("resourcegroup.yaml", content)], .eof) := by
  cases hp : lib.parseResourceGroup content with
  | error e => simp [runPackage, hp, fail] at h
  | ok rg =>
    rw [runPackage_eq codec tar lib now hp, Except.ok.injEq] at h
    subst h
    exact ⟨_, _, tar.read_write _, tar.read_write _⟩

end Kro.Package
