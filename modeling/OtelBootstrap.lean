import OtelBootstrap.Boot.Attachment
import OtelBootstrap.Boot.Clock
import OtelBootstrap.Boot.Exports
import OtelBootstrap.Boot.Reader
import OtelBootstrap.Boot.Root
import OtelBootstrap.Boot.Shutdown
import OtelBootstrap.Builder.Dialing
import OtelBootstrap.Builder.Downgrade
import OtelBootstrap.Builder.Endpoints
import OtelBootstrap.Builder.Guard
import OtelBootstrap.Builder.Loopback
import OtelBootstrap.Builder.Rollback
import OtelBootstrap.Export.CapturedText
import OtelBootstrap.Export.Law
import OtelBootstrap.Export.Retry
import OtelBootstrap.LogBridge.Conflicts
import OtelBootstrap.LogBridge.FieldTypes
import OtelBootstrap.LogBridge.Scope
import OtelBootstrap.Middleware.Coverage
import OtelBootstrap.Middleware.Parity
import OtelBootstrap.Middleware.Readiness
import OtelBootstrap.Probe.Slope
import OtelBootstrap.Proc.Age
import OtelBootstrap.Proc.Resident
import OtelBootstrap.Boot.Origin
import OtelBootstrap.Boot.Stream
import OtelBootstrap.Boot.Timed
import OtelBootstrap.Builder.Inits
import OtelBootstrap.Export.Quota
import OtelBootstrap.Library.Hex
import OtelBootstrap.Middleware.Path
import OtelBootstrap.Probe.Robust
import OtelBootstrap.Library.Embedding
import OtelBootstrap.LogBridge.Apart
