import DocWire.Address
import DocWire.Client.Script
import DocWire.Codec
import DocWire.Correlator.Script
import DocWire.Frame.Reader
import DocWire.Handshake.Exchange
import DocWire.Proofs.Client.Replies
import DocWire.Routes.Script
import DocWire.Text.Shown
import DocWire.Proofs.Client.Guarded
import DocWire.Proofs.Client.Draining
import DocWire.Proofs.Client.Events
import DocWire.Proofs.Client.Delivery
import DocWire.Proofs.Correlator.Agreement
import DocWire.Proofs.Frame.Collecting
import DocWire.Proofs.Frame.Reading
import DocWire.Proofs.Message.Records
import DocWire.Proofs.MessagePack.ReadingBack
import DocWire.Proofs.Json.Doubles
import DocWire.Proofs.Json.Texts
import DocWire.Proofs.Json.Tokens
import DocWire.Proofs.Json.Trees
import DocWire.Proofs.Client.Limits
import DocWire.Proofs.Message.RoundTrip
import DocWire.Proofs.Message.Views
import DocWire.Proofs.Message.FreeForm
import DocWire.Proofs.Client.Ids
import DocWire.Proofs.Client.Disconnecting
import DocWire.Proofs.Client.Outstanding
import DocWire.Proofs.Client.Ordering
import DocWire.Proofs.Client.Faults
import DocWire.Proofs.Client.Listening
import DocWire.Proofs.Handshake.Negotiation
import DocWire.Proofs.Client.Connecting
import DocWire.Proofs.Client.Commuting
import DocWire.Proofs.Client.Weighing
import DocWire.Proofs.Client.Piecewise
import DocWire.Proofs.Correlator.Backed
import DocWire.Proofs.Routes.Nested
import DocWire.Proofs.Message.Answers
import DocWire.Proofs.Client.Answering
import DocWire.Proofs.Frame.Bounds
