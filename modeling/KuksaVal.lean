import KuksaVal.PrunedTrees
import KuksaVal.TreeAgreement
import KuksaVal.RuntimeMembers
import KuksaVal.Confinement
import KuksaVal.Correlation
import KuksaVal.Requests
import KuksaVal.TokenRights
import KuksaVal.GetRequest
import KuksaVal.VssTree
import KuksaVal.Notifications
import KuksaVal.Authorization
import KuksaVal.QueryAnswers
import KuksaVal.LeafPaths
import KuksaVal.SetRequest
import KuksaVal.Resolution
import KuksaVal.VssCommandProcessor
import KuksaVal.VSSRequestValidator
import KuksaVal.Authenticator
import KuksaVal.SubscriptionHandler
import KuksaVal.VssDatabase
import KuksaVal.Json.Patch
import KuksaVal.JsonResponses
import KuksaVal.VSSTypeSanitizer
import KuksaVal.AccessChecker
import KuksaVal.VSSPath
import KuksaVal.Text
import KuksaVal.Json.Path
import KuksaVal.Delivery
import KuksaVal.Finality
import KuksaVal.SubThread
import KuksaVal.GrpcSessions
import KuksaVal.GrpcStreams
import KuksaVal.StreamWrites
import KuksaVal.Expiry
import KuksaVal.MetaDataUpdates
import KuksaVal.SessionAddresses
import KuksaVal.PublishLocks
import KuksaVal.UnsubscribeAll
import KuksaVal.SanitizedValues
import KuksaVal.Json.Merge
import KuksaVal.Overlays
import KuksaVal.Json.Keys
import KuksaVal.MetadataTree
import KuksaVal.LiveOverlays
import KuksaVal.VssDatabaseRecord
import KuksaVal.GrpcCalls
import KuksaVal.StreamBookkeeping
import KuksaVal.Datatypes
import KuksaVal.Wildcard
import KuksaVal.PermissionPatterns
import KuksaVal.Json.Order
import KuksaVal.LeafOrder
import KuksaVal.PathSpellings
import KuksaVal.MetaDataSpine
import KuksaVal.Calendar
import KuksaVal.TimeStamps
import KuksaVal.StreamedAttributes
import KuksaVal.WebSocketSession
import KuksaVal.SubscribeRequests
import KuksaVal.SetReplies
import KuksaVal.GetReplies
import KuksaVal.MQTTPublisher
import KuksaVal.PublishedTopics
import KuksaVal.InformationFlow
import KuksaVal.MetadataReads
import KuksaVal.Secrecy
import KuksaVal.NotificationPipeline
import KuksaVal.SignalRegister
import KuksaVal.TypedSignals
import KuksaVal.Connections
import KuksaVal.SerialAnswers
import KuksaVal.ClientMaps
import KuksaVal.Json.Layers
import KuksaVal.OverlayLoader
import KuksaVal.MetadataRegister
import KuksaVal.ParquetPacker
import KuksaVal.Dictionary
import KuksaVal.KuksaVALServerClient
import KuksaVal.UploaderPolls
import KuksaVal.MessageRegister
import KuksaVal.Convergence
import KuksaVal.RecordedSets
