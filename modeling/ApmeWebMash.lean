import ApmeWebMash.Adapters.Agreement
import ApmeWebMash.Adapters.CloudEvents
import ApmeWebMash.Adapters.CorrelationId
import ApmeWebMash.Adapters.IdSelection
import ApmeWebMash.Adapters.ResponseIds
import ApmeWebMash.Base.BTreeMap
import ApmeWebMash.Base.Base64
import ApmeWebMash.Base.Broadcast
import ApmeWebMash.Base.DerivedStruct
import ApmeWebMash.Base.FileSystem
import ApmeWebMash.Base.IpAddr
import ApmeWebMash.Base.Json
import ApmeWebMash.Base.JsonEscape
import ApmeWebMash.Base.JsonRoundTrip
import ApmeWebMash.Base.Markup
import ApmeWebMash.Base.Numeral
import ApmeWebMash.Base.Reader
import ApmeWebMash.Base.ReaderErrors
import ApmeWebMash.Base.ReaderRules
import ApmeWebMash.Base.ReaderWaits
import ApmeWebMash.Base.Run
import ApmeWebMash.Base.ShellWords
import ApmeWebMash.Base.Sql
import ApmeWebMash.Base.Text
import ApmeWebMash.Base.UnicodeEscape
import ApmeWebMash.Base.Utf8
import ApmeWebMash.Crates
import ApmeWebMash.DataPlane.Configuration
import ApmeWebMash.DataPlane.Direct
import ApmeWebMash.DataPlane.Envelopes
import ApmeWebMash.DataPlane.Http
import ApmeWebMash.DataPlane.HttpCases
import ApmeWebMash.DataPlane.Nats
import ApmeWebMash.DataPlane.RequestLimit
import ApmeWebMash.DataPlane.StatusProtocol
import ApmeWebMash.DataPlane.Tcp
import ApmeWebMash.DataPlane.TcpResync
import ApmeWebMash.Env.Ciphertexts
import ApmeWebMash.Env.Consumers
import ApmeWebMash.Env.Container
import ApmeWebMash.Env.Dotenv
import ApmeWebMash.Env.Entrypoint
import ApmeWebMash.Env.FoldBack
import ApmeWebMash.Env.Plaintexts
import ApmeWebMash.Env.Vault
import ApmeWebMash.Lambdas.Aws
import ApmeWebMash.Lambdas.CloudEvent
import ApmeWebMash.Lambdas.CloudEventModes
import ApmeWebMash.Lambdas.Dispatch
import ApmeWebMash.Lambdas.PortableHttp
import ApmeWebMash.Lambdas.RequestId
import ApmeWebMash.OracleFn.Adapter
import ApmeWebMash.OracleFn.BadRequests
import ApmeWebMash.OracleFn.Exchange
import ApmeWebMash.OracleFn.FailureLog
import ApmeWebMash.OracleFn.HttpStream
import ApmeWebMash.OracleFn.Response
import ApmeWebMash.OracleFn.ResponseFraming
import ApmeWebMash.OracleFn.OpenStream
import ApmeWebMash.OracleFn.Process
import ApmeWebMash.OracleFn.RequestPath
import ApmeWebMash.OracleFn.Socket
import ApmeWebMash.OracleFn.Startup
import ApmeWebMash.OracleFn.StrictFraming
import ApmeWebMash.OracleFn.Consumption
import ApmeWebMash.OracleFn.Encoding
import ApmeWebMash.OracleFn.Truncation
import ApmeWebMash.OracleFn.Limits
import ApmeWebMash.Web.Auth
import ApmeWebMash.Web.DataPlaneRequest
import ApmeWebMash.Web.Fragments
import ApmeWebMash.Web.Introspection
import ApmeWebMash.Web.Items
import ApmeWebMash.Web.Notifications
import ApmeWebMash.Web.RecordStore
import ApmeWebMash.Web.Startup
