import ThreadLink.Lib.Text
import ThreadLink.Lib.OrdMap
import ThreadLink.Lib.Runs
import ThreadLink.Backend.Commands
import ThreadLink.Backend.Server
import ThreadLink.Backend.Registry
import ThreadLink.Backend.Delivery
import ThreadLink.Backend.Nicknames
import ThreadLink.Backend.Welcome
import ThreadLink.Backend.Renames
import ThreadLink.Backend.Mirror
import ThreadLink.Lib.Json
import ThreadLink.Gateway.ClientProtocol
import ThreadLink.Gateway.BackendMessages
import ThreadLink.Gateway.Store
import ThreadLink.Gateway.Server
import ThreadLink.Gateway.Handlers
import ThreadLink.Gateway.Sessions
import ThreadLink.Gateway.Closing
import ThreadLink.Gateway.LostConnections
import ThreadLink.Gateway.Roster
import ThreadLink.Gateway.Queue
import ThreadLink.Gateway.Authentication
import ThreadLink.Gateway.Accounts
import ThreadLink.Gateway.Conversations
import ThreadLink.Gateway.Groups
import ThreadLink.Gateway.Ready
import ThreadLink.Gateway.Faults
import ThreadLink.Lib.Framing
import ThreadLink.Backend.Protocol
import ThreadLink.Gateway.WireProtocol
import ThreadLink.System.Framing
import ThreadLink.Frontend.ChatState
import ThreadLink.Gateway.Becoming
import ThreadLink.Gateway.Standing
import ThreadLink.Gateway.Replicas
import ThreadLink.System.Lines
import ThreadLink.System.Replicas
import ThreadLink.System.Direct
import ThreadLink.Backend.Clients
import ThreadLink.System.Limits
import ThreadLink.Backend.Relay
import ThreadLink.Backend.Routing
import ThreadLink.Gateway.Statements
import ThreadLink.Frontend.Restore
import ThreadLink.Frontend.Conversations
import ThreadLink.Frontend.WebSocketClient
import ThreadLink.Frontend.ChatProvider
import ThreadLink.Frontend.Reconnect
import ThreadLink.System.Browser
import ThreadLink.Gateway.UserStore
import ThreadLink.Gateway.Passwords
import ThreadLink.Gateway.Usernames
import ThreadLink.Gateway.Membership
import ThreadLink.Backend.Order
import ThreadLink.System.Order
import ThreadLink.System.Texts
import ThreadLink.System.Usernames
import ThreadLink.System.Exchange
import ThreadLink.Backend.Posting
import ThreadLink.Backend.Confirming
import ThreadLink.Backend.Replies
import ThreadLink.Frontend.Summaries
import ThreadLink.Frontend.Logout
import ThreadLink.Frontend.GroupCreation
import ThreadLink.Frontend.Profile
import ThreadLink.Backend.DefaultNicknames
import ThreadLink.Backend.Configuration
import ThreadLink.Gateway.Validation
import ThreadLink.Frontend.Outbound
import ThreadLink.Backend.Joining
import ThreadLink.Backend.NickCommand
import ThreadLink.Gateway.AfterLogout
import ThreadLink.Backend.JoinFirst
import ThreadLink.Lib.Refinement
import ThreadLink.Backend.Room
import ThreadLink.Backend.Notices
import ThreadLink.Backend.Closing
import ThreadLink.Lib.Progress
import ThreadLink.Backend.Shutdown
import ThreadLink.Backend.Mutexes
import ThreadLink.Backend.Wire
import ThreadLink.System.Wire
import ThreadLink.Backend.Terminal
import ThreadLink.System.Terminal
import ThreadLink.Lib.Restarts
import ThreadLink.Lib.Sorting
import ThreadLink.Gateway.Database
import ThreadLink.Gateway.Lifetimes
import ThreadLink.Gateway.Privacy
import ThreadLink.Frontend.GroupMessages
import ThreadLink.Gateway.GroupMessages
import ThreadLink.System.GroupMessages
import ThreadLink.System.DirectIds
import ThreadLink.Gateway.Configuration
import ThreadLink.System.Configuration
import ThreadLink.System.Schedules
