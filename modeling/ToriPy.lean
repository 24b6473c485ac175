import ToriPy.PersistentStreams.Producers
import ToriPy.PersistentStreams.Exclusion
import ToriPy.PersistentStreams.Transfers
import ToriPy.PersistentStreams.Fencing
import ToriPy.PersistentStreams.Receipts
import ToriPy.PersistentStreams.StartTimes
import ToriPy.EventSourcing.Repositories
import ToriPy.EventSourcing.Upcasting
import ToriPy.Microservices.Strictness
import ToriPy.Microservices.Rotation
import ToriPy.Microservices.Retries
import ToriPy.Microservices.Publisher
import ToriPy.Cqrs.Permits
import ToriPy.Settings.Overrides
import ToriPy.Core.Sharing
import ToriPy.Core.Resources
import ToriPy.Core.Pairing
import ToriPy.Http.Gate
import ToriPy.Http.Redirects
import ToriPy.Http.Binding
import ToriPy.LiveView.RenderTree
