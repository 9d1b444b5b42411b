import SteamHandler.TransitionSystem
import SteamHandler.Behaviours
import SteamHandler.KeyedStore
import SteamHandler.RwLocks
import SteamHandler.Numerals
import SteamHandler.Channels
import SteamHandler.Messages
import SteamHandler.Subscriptions
import SteamHandler.SubscriptionRegistry
import SteamHandler.CommandHistory
import SteamHandler.Requests
import SteamHandler.Base58
import SteamHandler.KeyTexts
import SteamHandler.Dispatch
import SteamHandler.Backoff
import SteamHandler.ConnectionManager
import SteamHandler.ServerView
import SteamHandler.Supervision
import SteamHandler.Sessions
import SteamHandler.Disconnects
import SteamHandler.Delivery
import SteamHandler.ChannelEnds
import SteamHandler.Database
import SteamHandler.Deployment
import SteamHandler.Shutdown
import SteamHandler.PoolHistory
import SteamHandler.Recording
import SteamHandler.EndToEnd
import SteamHandler.ManagerRuns
import SteamHandler.Extraction
import SteamHandler.LookupTables
import SteamHandler.ClientRemoval
import SteamHandler.FilterSwitches
import SteamHandler.StreamDispatch
import SteamHandler.Attempts
import SteamHandler.RetryPacing
import SteamHandler.StaleFilters
import SteamHandler.OwnerGone
import SteamHandler.KeyExtraction
import SteamHandler.RequestChoices
import SteamHandler.Wire
import SteamHandler.Progress
import SteamHandler.EventReports
import SteamHandler.Clients
import SteamHandler.Outages
import SteamHandler.RowOrigins
import SteamHandler.Noninterference
import SteamHandler.Restarts
import SteamHandler.FairRuns
import SteamHandler.FairProgram
import SteamHandler.CriticalSections
import SteamHandler.LockGuards
import SteamHandler.Atomicity
import SteamHandler.LockGrain
