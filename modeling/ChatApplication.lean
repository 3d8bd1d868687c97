import ChatApplication.Data.Positions
import ChatApplication.Data.WriteLog
import ChatApplication.Data.Recency
import ChatApplication.Data.RegEx
import ChatApplication.Data.SplitAtLast
import ChatApplication.Order.SortBy
import ChatApplication.Order.PairKey
import ChatApplication.Machine.Basic
import ChatApplication.Machine.View
import ChatApplication.Machine.Rebinding
import ChatApplication.Machine.PubSub
import ChatApplication.Machine.Refinement
import ChatApplication.Machine.Uploads
import ChatApplication.Machine.Progress
import ChatApplication.Model.User
import ChatApplication.Model.Message
import ChatApplication.Utils.StringExtension
import ChatApplication.API.Decoding
import ChatApplication.API.Membership
import ChatApplication.API.Membership.Exchanges
import ChatApplication.API.Activity
import ChatApplication.API.MessageID
import ChatApplication.API.AddMessage
import ChatApplication.API.MessageLog
import ChatApplication.API.Rows
import ChatApplication.API.Profiles
import ChatApplication.API.NetworkManager
import ChatApplication.API.Storage
import ChatApplication.Controller.ChatController
import ChatApplication.Controller.Isolation
import ChatApplication.Controller.Composer
import ChatApplication.Controller.Outbox
import ChatApplication.Controller.FailedUploads
import ChatApplication.Controller.ChatListener
import ChatApplication.Controller.ChatListener.Generations
import ChatApplication.Controller.ChatListener.Order
import ChatApplication.Controller.ChatListener.Preview
import ChatApplication.Controller.ConversationViewController
import ChatApplication.Controller.ConversationViewController.Accounts
import ChatApplication.Controller.ConversationViewController.Convergence
import ChatApplication.Controller.ConversationViewController.Rows
import ChatApplication.Controller.ConversationViewController.ServedRows
import ChatApplication.Controller.Attribution
import ChatApplication.Controller.CreateGroupController
import ChatApplication.Controller.CreateGroupController.GroupCreation
import ChatApplication.Controller.CreateGroupController.GroupSize
import ChatApplication.Controller.SelectUsersViewController
import ChatApplication.Controller.SelectUsersViewController.Search
import ChatApplication.Controller.SelectUsersViewController.SelectedContacts
import ChatApplication.Controller.Authentication
import ChatApplication.Controller.ListViews
import ChatApplication.Controller.Scrolling
import ChatApplication.Controller.Listeners
import ChatApplication.Controller.Credentials
import ChatApplication.Controller.Registrations
import ChatApplication.View.CustomCells
import ChatApplication.Clients.Basic
import ChatApplication.Clients.Delivery
import ChatApplication.Clients.Requests
import ChatApplication.Clients.Parties
import ChatApplication.Clients.Lists
import ChatApplication.Clients.Sending
import ChatApplication.Clients.Photos
import ChatApplication.Clients.RecentUsers
import ChatApplication.Clients.Devices
import ChatApplication.Clients.Progress
import ChatApplication.Clients.CatchingUp
