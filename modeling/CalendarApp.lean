import CalendarApp.Lib.Run
import CalendarApp.Lib.Tiles
import CalendarApp.Event.Modal
import CalendarApp.Event.Document
import CalendarApp.Event.View
import CalendarApp.Event.ClockText
import CalendarApp.Event.ListItem
import CalendarApp.Event.AllDay
import CalendarApp.Event.Detail
import CalendarApp.Event.NewEvent
import CalendarApp.Event.ClockFields
import CalendarApp.Event.Picker
import CalendarApp.Event.Stored
import CalendarApp.Chat.Modal
import CalendarApp.Chat.Room
import CalendarApp.Event.Invite
import CalendarApp.Schedule.Bloc
import CalendarApp.Schedule.Home
import CalendarApp.Chat.Bubbles
import CalendarApp.Event.Correction
import CalendarApp.Event.Dates
import CalendarApp.Lib.Collection
import CalendarApp.Lib.Queues
import CalendarApp.Server.Store
import CalendarApp.Server.World
import CalendarApp.Chat.Receipts
import CalendarApp.Event.Participants
import CalendarApp.Chat.Order
import CalendarApp.Lib.Atomic
import CalendarApp.Chat.TwoWrites
import CalendarApp.Chat.Rows
import CalendarApp.Chat.Times
import CalendarApp.Chat.Reach
import CalendarApp.Chat.OpenRoom
import CalendarApp.Chat.Marking
import CalendarApp.Schedule.Close
import CalendarApp.Schedule.Grid
import CalendarApp.Schedule.Pages
import CalendarApp.Schedule.Header
import CalendarApp.Account.Session
import CalendarApp.Account.Handlers
import CalendarApp.Account.Profile
import CalendarApp.Account.SignIn
import CalendarApp.Account.Avatars
import CalendarApp.Chat.History
import CalendarApp.Chat.Reactions
import CalendarApp.Event.Invited
import CalendarApp.Event.DateText
import CalendarApp.Event.Printed
import CalendarApp.Event.Spelled
import CalendarApp.Event.Going
import CalendarApp.Lib.Query
import CalendarApp.Event.Upcoming
import CalendarApp.Chat.Preview
import CalendarApp.Schedule.Tabs
import CalendarApp.Lib.Span
import CalendarApp.Schedule.Years
import CalendarApp.Lib.Interleave
import CalendarApp.Server.Deliveries
import CalendarApp.Schedule.Cells
import CalendarApp.Event.Edited
import CalendarApp.Server.Rest
