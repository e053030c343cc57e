import Throttle.Rounding
import Throttle.Binary64.Basic
import Throttle.Binary64.Bits
import Throttle.Time
import Throttle.Time.Text
import Throttle.Denial
import Throttle.Limit
import Throttle.Bucket
import Throttle.Limiter
import Throttle.Numeral.Integer
import Throttle.Numeral.Decimal
import Throttle.Text.Unprintable
import Throttle.Text.Quoted
import Throttle.Text.Terminal
import Throttle.Yaml.Malformed
import Throttle.Yaml.Cursor
import Throttle.Yaml.Token
import Throttle.Yaml.Scalar
import Throttle.Yaml.Property
import Throttle.Yaml.TokenStream
import Throttle.Yaml.Node
import Throttle.Yaml.Document
import Throttle.Yaml.Reading
import Throttle.RouteTable
import Throttle.Config
import Throttle.Config.Decoding
import Throttle.Environment
import Throttle.Config.Loading
import Throttle.Registry
import Throttle.JsonValue
import Throttle.Http.Request
import Throttle.Http.Response
import Throttle.Gateway
import Throttle.SocketAddress
import Throttle.Server
import Throttle.Session
import Throttle.Benchmark
import Throttle.Main
import Throttle.Proofs.Binary64.Nearest
import Throttle.Proofs.Binary64.Denotation
import Throttle.Proofs.Limit.Conversion
import Throttle.Proofs.Limit.Order
import Throttle.Proofs.Bucket.Clock
import Throttle.Proofs.Bucket.Balance
import Throttle.Proofs.Bucket.Grant
import Throttle.Proofs.Limiter.Run
import Throttle.Proofs.Limiter.Capacity
import Throttle.Proofs.Bucket.Refill
import Throttle.Proofs.Bucket.Payment
import Throttle.Proofs.Bucket.Turn
import Throttle.Proofs.Bucket.Refusal
import Throttle.Proofs.Limiter.Admission
import Throttle.Proofs.Limiter.Turn
import Throttle.Proofs.Limiter.HighWater
import Throttle.Proofs.Registry.Lookup
import Throttle.Proofs.Registry.ByteOrder
import Throttle.Proofs.Gateway.Retuning
import Throttle.Proofs.Gateway.Run
import Throttle.Proofs.Gateway.Isolation
import Throttle.Proofs.Gateway.Hold
import Throttle.Proofs.Gateway.Mirror
import Throttle.Proofs.Gateway.Neutrality
import Throttle.Proofs.Server.Mirror
import Throttle.Proofs.Bucket.Retry
import Throttle.Proofs.Gateway.Retry
import Throttle.Proofs.Limit.Interval
import Throttle.Proofs.Limiter.Pacing
import Throttle.Proofs.Bucket.Counter
import Throttle.Proofs.Limiter.Counter
import Throttle.Proofs.Bucket.Monotone
import Throttle.Proofs.Limiter.Monotone
import Throttle.Proofs.Limiter.Renewal
import Throttle.Proofs.Gateway.Accounting
import Throttle.Proofs.Server.FailedReload
import Throttle.Proofs.Binary64.Sign
import Throttle.Proofs.Bucket.Wait
import Throttle.Proofs.Bucket.Standing
import Throttle.Proofs.Limiter.Refusal
import Throttle.Proofs.Limiter.Wait
import Throttle.Proofs.Limiter.SameInstant
import Throttle.Proofs.Registry.Longest
import Throttle.Proofs.Bucket.Shift
import Throttle.Proofs.Limiter.Shift
import Throttle.Proofs.Numeral.Grammar
import Throttle.Proofs.Http.Cost
import Throttle.Proofs.Numeral.Double
import Throttle.Proofs.Config.Overrides
import Throttle.Proofs.Config.Outcome
import Throttle.Proofs.Config.Rearrangement
import Throttle.Proofs.Limit.Comparison
import Throttle.Proofs.Limit.RoundTrip
