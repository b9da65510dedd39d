import Hotswap.Delivery.Watch
import Hotswap.Memory.Install
import Hotswap.Proofs.Memory.Install
import Hotswap.Proofs.Pairing
import Hotswap.Proofs.Session.Authority
import Hotswap.Proofs.Session.Bystander
import Hotswap.Proofs.Session.Call
import Hotswap.Proofs.Session.Frame
import Hotswap.Proofs.Session.Harmless
import Hotswap.Proofs.Session.History
import Hotswap.Proofs.Session.Run
import Hotswap.Proofs.Session.Touched
import Hotswap.Session.SelfTest
import Hotswap.Proofs.Machine.RoundTrip
import Hotswap.Proofs.Session.Layers
import Hotswap.Proofs.Session.Progress
import Hotswap.Proofs.Session.Steady
import Hotswap.Proofs.Session.Independence
import Hotswap.Proofs.Session.Circles
import Hotswap.Proofs.Session.Arrival
import Hotswap.Proofs.Delivery.Feed
import Hotswap.Proofs.Delivery.Vouched
import Hotswap.Proofs.Delivery.Names
import Hotswap.Proofs.Delivery.Lookup
import Hotswap.Proofs.Delivery.Tidy
import Hotswap.Proofs.Delivery.Neighbours
import Hotswap.Proofs.Delivery.Existing
import Hotswap.Proofs.Delivery.Descent
import Hotswap.Proofs.Delivery.Course
import Hotswap.Proofs.Delivery.Consumed
import Hotswap.Proofs.Memory.Closing
import Hotswap.Proofs.Memory.Windowed
import Hotswap.Proofs.Redirect
import Hotswap.Proofs.Shape
import Hotswap.Proofs.Overlay
import Hotswap.Proofs.Overrides
import Hotswap.Proofs.Session.Newest
import Hotswap.Proofs.Session.Policy
import Hotswap.Proofs.Memory.Commuting
import Hotswap.Proofs.Machine.Language
import Hotswap.Proofs.Memory.LastPage
import Hotswap.Proofs.Delivery.Extension
import Hotswap.Proofs.Delivery.Settings
