import WazoWebhookd.Library.Dictionary
import WazoWebhookd.Library.KeyedList
import WazoWebhookd.Library.Run
import WazoWebhookd.Library.Interleaving
import WazoWebhookd.Library.Failing
import WazoWebhookd.Library.ReadCommitted
import WazoWebhookd.Library.Json
import WazoWebhookd.Library.JsonStrings
import WazoWebhookd.Library.JsonText
import WazoWebhookd.Library.UrlHost
import WazoWebhookd.Library.HeaderParams
import WazoWebhookd.Library.HeaderWeights
import WazoWebhookd.Library.ExceptionClasses
import WazoWebhookd.Library.Retry
import WazoWebhookd.Library.OrderedPages
import WazoWebhookd.Library.JobPool
import WazoWebhookd.Bus.Headers
import WazoWebhookd.Bus.Consumer
import WazoWebhookd.Bus.PrivateQueues
import WazoWebhookd.Bus.UpstreamExchange
import WazoWebhookd.Bus.DeprecatedCalls
import WazoWebhookd.Database.Models
import WazoWebhookd.Database.ConcurrentUpdates
import WazoWebhookd.Database.SyncDb
import WazoWebhookd.Subscription.BusEventHandler
import WazoWebhookd.Subscription.Headers
import WazoWebhookd.Subscription.BusCalls
import WazoWebhookd.Subscription.Router
import WazoWebhookd.Subscription.FreshRegistration
import WazoWebhookd.Subscription.QueueBindings
import WazoWebhookd.Subscription.Isolation
import WazoWebhookd.Subscription.FailingCalls
import WazoWebhookd.Subscription.DeletionRace
import WazoWebhookd.Subscription.Startup
import WazoWebhookd.Subscription.Schema
import WazoWebhookd.Subscription.Service
import WazoWebhookd.Subscription.ServiceCalls
import WazoWebhookd.Subscription.AllOrNothing
import WazoWebhookd.Subscription.OwnershipFilters
import WazoWebhookd.Subscription.Cleanup
import WazoWebhookd.Subscription.ForeignDeletions
import WazoWebhookd.Subscription.UserEndpoints
import WazoWebhookd.Subscription.UserConfinement
import WazoWebhookd.Subscription.AdminSchema
import WazoWebhookd.Subscription.SchemaErrors
import WazoWebhookd.Subscription.AcceptedBodies
import WazoWebhookd.Subscription.AdminEndpoints
import WazoWebhookd.Subscription.MetadataSearch
import WazoWebhookd.Subscription.TenantMoves
import WazoWebhookd.Subscription.StoredBodies
import WazoWebhookd.Subscription.RestStore
import WazoWebhookd.Subscription.PutBack
import WazoWebhookd.Hook.CeleryTasks
import WazoWebhookd.Hook.Delivery
import WazoWebhookd.Hook.LogFailures
import WazoWebhookd.Database.Purger
import WazoWebhookd.Subscription.LogPages
import WazoWebhookd.Subscription.Enqueuing
import WazoWebhookd.Hook.Helpers
import WazoWebhookd.Hook.HttpService
import WazoWebhookd.Hook.LocalhostGuard
import WazoWebhookd.Hook.ContentType
import WazoWebhookd.Mobile.ExternalAuth
import WazoWebhookd.Mobile.StaleListings
import WazoWebhookd.Mobile.NotificationSchema
import WazoWebhookd.Mobile.PushNotification
import WazoWebhookd.Mobile.ExternalData
import WazoWebhookd.Mobile.DeviceTokens
import WazoWebhookd.Mobile.FcmClient
import WazoWebhookd.Mobile.LegacyFcm
import WazoWebhookd.Mobile.FcmPayload
import WazoWebhookd.Mobile.BusNotifications
import WazoWebhookd.Subscription.Interest
import WazoWebhookd.Subscription.Daemon
import WazoWebhookd.Subscription.UpdateWindow
import WazoWebhookd.Hook.WorkerPool
import WazoWebhookd.Hook.EndToEnd
import WazoWebhookd.Subscription.Attribution
import WazoWebhookd.Subscription.Requests
import WazoWebhookd.Subscription.PrivateHooks
import WazoWebhookd.Subscription.TenantFilters
import WazoWebhookd.Subscription.LifecycleEvents
import WazoWebhookd.Hook.Exchange
import WazoWebhookd.Hook.LogConfinement
import WazoWebhookd.Hook.HttpDelivery
import WazoWebhookd.Subscription.BusEvents
import WazoWebhookd.Mobile.MobileHooks
import WazoWebhookd.Mobile.PrivatePushes
import WazoWebhookd.Mobile.PushDelivery
import WazoWebhookd.Mobile.FcmNotification
import WazoWebhookd.Mobile.NotificationEndpoint
