import Kro.Go.Runtime
import Kro.Delta.Compare
import Kro.Delta.Coverage
import Kro.Delta.Differences
import Kro.Json.Text
import Kro.SimpleSchema.Markers
import Kro.SimpleSchema.MarkerScan
import Kro.SimpleSchema.MarkerRender
import Kro.SimpleSchema.ApplyMarkers
import Kro.SimpleSchema.Transformer
import Kro.SimpleSchema.Types
import Kro.SimpleSchema.BuildFields
import Kro.SimpleSchema.Defaults
import Kro.SimpleSchema.MapOrder
import Kro.Cli.Rbac
import Kro.Cli.Registry
import Kro.Go.Tar
import Kro.Oci.Wire
import Kro.Oci.Distribution
import Kro.Cli.Package
import Kro.Cli.Install
import Kro.Cli.Pipeline
import Kro.Cli.Concurrent
