import Mupnp.Foundation.OwnershipLedger
import Mupnp.Foundation.ThreadTable
import Mupnp.Foundation.XmlText
import Mupnp.Foundation.XmlPieces
import Mupnp.Foundation.TransitionSystem
import Mupnp.Http.HttpHeaderList
import Mupnp.Ssdp.SsdpPacket
import Mupnp.Util.StringFunction
import Mupnp.Discovery.Device
import Mupnp.Discovery.ControlPoint
import Mupnp.Discovery.DiscoverySystem
import Mupnp.Discovery.StepEffect
import Mupnp.Discovery.DeviceLedger
import Mupnp.Discovery.RootUniqueness
import Mupnp.Discovery.DiscoveryEpoch
import Mupnp.Discovery.PendingFetches
import Mupnp.Discovery.CachedPacketRemoval
import Mupnp.Discovery.DeviceOwnership
import Mupnp.Discovery.LastAnnouncement
import Mupnp.Util.LongString
import Mupnp.Xml.XmlNode
import Mupnp.Xml.XmlParser
import Mupnp.Xml.XmlSerialize
import Mupnp.Event.StateVariable
import Mupnp.Event.Subscriber
import Mupnp.Event.NotifyRequest
import Mupnp.Event.EventedService
import Mupnp.Event.ServiceNotify
import Mupnp.Event.EventSequence
import Mupnp.Event.InitialEvent
import Mupnp.Event.SubscriberLifecycle
import Mupnp.Event.SubscriberLinks
import Mupnp.Event.SubscriberSections
import Mupnp.Event.SubscriberSafety
import Mupnp.Control.ActionRequest
import Mupnp.Control.ArgumentIsolation
import Mupnp.Util.StringTokenizer
import Mupnp.Xml.XmlRoundTrip
import Mupnp.Soap.Soap
import Mupnp.Util.CharBuffer
import Mupnp.Util.Dictionary
import Mupnp.Control.ActionResponse
import Mupnp.Control.ActionResult
import Mupnp.Soap.SoapMessage
import Mupnp.Control.ResponseAcceptance
import Mupnp.Control.CallElement
import Mupnp.Control.ResponseRoundTrip
import Mupnp.Control.FaultResponse
import Mupnp.Control.ControlServer
import Mupnp.Control.RequestRoundTrip
import Mupnp.Event.PropertySet
import Mupnp.Event.SubscriptionTimeout
import Mupnp.Event.SidLookup
import Mupnp.Foundation.SegmentedStream
import Mupnp.Net.NetUri
import Mupnp.Net.Socket
import Mupnp.Http.HttpPacket
import Mupnp.Http.HttpRequest
import Mupnp.Http.HttpResponse
import Mupnp.Http.HttpRoundTrip
import Mupnp.Http.ReceivedHeader
import Mupnp.Event.SidFidelity
import Mupnp.Foundation.UriReference
import Mupnp.Net.UriScan
import Mupnp.Net.AuthorityScan
import Mupnp.Service.ServiceUrl
import Mupnp.Service.UrlResolution
import Mupnp.Net.UriRecovery
import Mupnp.Foundation.ListCut
import Mupnp.Foundation.ChunkedCoding
import Mupnp.Http.ChunkSize
import Mupnp.Http.BodyFraming
import Mupnp.Http.ChunkedRoundTrip
import Mupnp.Http.MessageCopy
import Mupnp.Http.MessageReuse
import Mupnp.Advertisement.DeviceSsdp
import Mupnp.Advertisement.Agreement
import Mupnp.Advertisement.DescribedDevice
import Mupnp.Advertisement.TargetedSearch
import Mupnp.Discovery.DeviceUpdate
import Mupnp.Expiration.ExpirationHandler
import Mupnp.Expiration.MetExpirations
import Mupnp.Expiration.HandlerPass
import Mupnp.DeviceServer.RequestDispatch
import Mupnp.DeviceServer.HeadResponse
import Mupnp.Net.AddressScan
import Mupnp.Event.NotifyDelivery
import Mupnp.Event.DeliveryTarget
import Mupnp.Foundation.FirstMatch
import Mupnp.DeviceServer.ServiceRouting
import Mupnp.Foundation.CharText
import Mupnp.Event.TreeSubscription
import Mupnp.Ssdp.LeaseTime
import Mupnp.Advertisement.DuplicateFilter
import Mupnp.Http.RequestTarget
import Mupnp.Xml.TreeRoundTrip
import Mupnp.Advertisement.AdvertisedIdentity
import Mupnp.Http.ConnectionCache
import Mupnp.Advertisement.DeviceLocation
import Mupnp.Discovery.UpdatePaths
import Mupnp.Http.ServerLifecycle
import Mupnp.Http.ServerCustody
import Mupnp.Http.ServerThreads
import Mupnp.Http.ServerSteps
import Mupnp.Http.ServerSafety
import Mupnp.DeviceServer.DescriptionLookup
import Mupnp.Service.AllowedValues
import Mupnp.Control.ActionInputs
import Mupnp.Foundation.LoopIndex
import Mupnp.Service.TypeString
import Mupnp.Foundation.TextReplacement
import Mupnp.Xml.StringReplace
import Mupnp.Xml.EscapeRoundTrip
import Mupnp.Net.PercentCodec
import Mupnp.Foundation.FormCode
import Mupnp.Xml.ForceUtf8
import Mupnp.Util.LinkedList
import Mupnp.Net.InterfaceChanges
import Mupnp.Event.NotificationRound
import Mupnp.Foundation.SliceTrace
import Mupnp.Net.UriIndices
import Mupnp.Service.RelativeReference
import Mupnp.Net.UriRebuild
import Mupnp.Foundation.EntryMap
import Mupnp.Net.QueryDictionary
import Mupnp.Foundation.CellArray
import Mupnp.Ssdp.UsnBuffer
import Mupnp.Net.LineReader
import Mupnp.Foundation.BoundedMinimum
import Mupnp.Expiration.FirstExpiration
import Mupnp.Foundation.TextRuns
import Mupnp.Util.TokenizerBuffer
import Mupnp.Util.StringBuffer
import Mupnp.Util.StringOperations
import Mupnp.Foundation.LinkedRing
import Mupnp.Util.ListRings
import Mupnp.Util.ListLayout
import Mupnp.Util.ListOperations
import Mupnp.Foundation.Trimming
import Mupnp.Foundation.FirstEntry
import Mupnp.Util.StringTrim
import Mupnp.Http.HeaderListMap
import Mupnp.Http.HeaderListCells
import Mupnp.Http.StreamConsumption
import Mupnp.Http.ClientThread
import Mupnp.Http.PipelinedExchange
import Mupnp.Ssdp.SsdpMessage
import Mupnp.Ssdp.ReceiveThread
import Mupnp.Advertisement.AnnouncementDatagrams
import Mupnp.Advertisement.AnnouncedDiscovery
import Mupnp.Advertisement.SearchExchange
import Mupnp.Control.ActionExchange
import Mupnp.Util.ByteText
import Mupnp.Control.ControlMessage
import Mupnp.Control.InvocationExchange
import Mupnp.Control.SoapPost
import Mupnp.Control.QueryExchange
import Mupnp.Event.SubscriptionExchange
import Mupnp.Event.SubscriptionAgreement
