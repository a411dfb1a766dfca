import RecoupChat.Promise
import RecoupChat.Store
import RecoupChat.Handlers
import RecoupChat.System
import RecoupChat.Points
import RecoupChat.Interleaving
import RecoupChat.Structural
import RecoupChat.Sequential
import RecoupChat.Service
import RecoupChat.Refinement
import RecoupChat.ErrorAnswers
import RecoupChat.Lockout
import RecoupChat.Retry
import RecoupChat.Attribution
import RecoupChat.Isolation
import RecoupChat.Delivery
import RecoupChat.ChatList
import RecoupChat.Mirror
import RecoupChat.Agreement
import RecoupChat.MonotonicReads
import RecoupChat.SendLaws
import RecoupChat.Footprint
import RecoupChat.Responses
import RecoupChat.Joining
import RecoupChat.Router
import RecoupChat.JsText
import RecoupChat.Routes
import RecoupChat.Addressing
import RecoupChat.SignUp
import RecoupChat.Usernames
import RecoupChat.Sorting
import RecoupChat.ChatOrder
import RecoupChat.ChatPreview
import RecoupChat.JsValue
import RecoupChat.RowContents
import RecoupChat.ChatRow
import RecoupChat.ChatScreen
import RecoupChat.MessageList
import RecoupChat.ScreenServer
import RecoupChat.ContactField
import RecoupChat.ShownContact
import RecoupChat.Convergence
import RecoupChat.LogTimes
import RecoupChat.RowTimes
import RecoupChat.Auth
import RecoupChat.SignedIn
import RecoupChat.DeviceSignUps
import RecoupChat.Regrouping
import RecoupChat.Solo
import RecoupChat.Serializable
import RecoupChat.History
import RecoupChat.Provenance
import RecoupChat.ChatIds
import RecoupChat.Relabelling
import RecoupChat.MainScreens
import RecoupChat.Browsing
import RecoupChat.Pending
import RecoupChat.MainMounted
import RecoupChat.RouteOrder
import RecoupChat.Arrival
import RecoupChat.Alerts
import RecoupChat.OwnName
import RecoupChat.Refreshing
import RecoupChat.Settling
