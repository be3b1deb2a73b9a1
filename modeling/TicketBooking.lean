import TicketBooking.App.Coverage
import TicketBooking.App.Deadlocks
import TicketBooking.App.Listings
import TicketBooking.App.Statements
import TicketBooking.Cache.Managers
import TicketBooking.Catalog.Addresses
import TicketBooking.Catalog.CachedListing
import TicketBooking.Catalog.Categories
import TicketBooking.Catalog.EventStates
import TicketBooking.Catalog.Flags
import TicketBooking.Catalog.Sold
import TicketBooking.Database.GetOrCreate
import TicketBooking.Database.Savepoints
import TicketBooking.Http.AtMostOnce
import TicketBooking.Http.Isolation
import TicketBooking.Http.QueryKeys
import TicketBooking.Http.Replays
import TicketBooking.Http.Versions
import TicketBooking.Library.Joins
import TicketBooking.Library.Runs
import TicketBooking.Order.Counts
import TicketBooking.Order.Lifecycle
import TicketBooking.Order.Mail
import TicketBooking.Order.Owners
import TicketBooking.Order.Reservation
import TicketBooking.Order.Routes
import TicketBooking.Order.Serializable
import TicketBooking.Query.Conjunction
import TicketBooking.Query.Inserts
import TicketBooking.Query.Likes
import TicketBooking.Query.Loaders
import TicketBooking.Query.Mutations
import TicketBooking.Query.Operators
import TicketBooking.Query.OrderBy
import TicketBooking.Query.PageCounts
import TicketBooking.Query.Pages
import TicketBooking.Query.Paths
import TicketBooking.Query.Respect
import TicketBooking.Users.Bans
import TicketBooking.Users.Ownership
import TicketBooking.Views.Batches
import TicketBooking.Views.Counting
import TicketBooking.Views.Outages
import TicketBooking.Views.Unsent
import TicketBooking.App.Editors
import TicketBooking.App.Policy
