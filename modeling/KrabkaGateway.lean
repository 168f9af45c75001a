import KrabkaGateway.Schema.Framing
import KrabkaGateway.Schema.PreparedCache
import KrabkaGateway.Dedup.ExactlyOnce
import KrabkaGateway.Dedup.Revocation
import KrabkaGateway.Dedup.MembershipReader
import KrabkaGateway.Forward.Transparency
import KrabkaGateway.Connect
import KrabkaGateway.Consume.AckBooks
import KrabkaGateway.Consume.Poll
import KrabkaGateway.Consume.Explicit
import KrabkaGateway.Webhook.Guarantees
import KrabkaGateway.Send
import KrabkaGateway.Outbound.ForeignHeaders
import KrabkaGateway.Outbound.ViaBinary
import KrabkaGateway.Outbound.Batch
import KrabkaGateway.Filter.StringLiterals
import KrabkaGateway.Filter.RowMarker
import KrabkaGateway.Filter.Requoting
import KrabkaGateway.Filter.SchemaKey
import KrabkaGateway.Filter.IpcStream
import KrabkaGateway.Sdk.OnGateway
import KrabkaGateway.Cpp.Inbound
import KrabkaGateway.Filter.RoundTrip
