import DailyFresh.Interleave.Program
import DailyFresh.Interleave.System
import DailyFresh.Interleave.RelyGuarantee
import DailyFresh.Interleave.Solo
import DailyFresh.Python.Text
import DailyFresh.Store.Column
import DailyFresh.Store.Table
import DailyFresh.Store.Trail
import DailyFresh.Site.Models
import DailyFresh.Site.Services
import DailyFresh.Site.CartViews
import DailyFresh.Site.History
import DailyFresh.Concurrent.Effect
import DailyFresh.Concurrent.Checkout
import DailyFresh.Concurrent.Requests
import DailyFresh.Results.Stock
import DailyFresh.Results.Retry
import DailyFresh.Results.CartEntry
import DailyFresh.Results.StaleSave
import DailyFresh.Results.Payment
import DailyFresh.Results.Totals
import DailyFresh.Results.LifeCycle
import DailyFresh.Results.Quantities
import DailyFresh.Alone.Checkout
import DailyFresh.Alone.Items
import DailyFresh.Results.ExactCommit
import DailyFresh.Results.CartToOrder
import DailyFresh.Results.Confirmation
import DailyFresh.Results.OtherUsers
import DailyFresh.Results.DefaultAddress
import DailyFresh.Results.OwnAddress
import DailyFresh.Concurrent.Adds
import DailyFresh.Results.ConcurrentAdds
import DailyFresh.Concurrent.CommitPath
import DailyFresh.Results.LateAdds
import DailyFresh.Results.CutShort
import DailyFresh.Concurrent.Rows
import DailyFresh.Results.Restock
import DailyFresh.Site.Accounts
import DailyFresh.Results.Activation
import DailyFresh.Results.Serializable
import DailyFresh.Results.Polling
import DailyFresh.Results.BrowsingHistory
import DailyFresh.Site.Stores
import DailyFresh.Results.ConcurrentViews
import DailyFresh.Alone.CartRequests
import DailyFresh.Results.OneEntry
import DailyFresh.Alone.Reviews
import DailyFresh.Results.PartialReviews
import DailyFresh.Results.ReviewForm
import DailyFresh.Results.Paging
import DailyFresh.Interleave.Monitor
import DailyFresh.Results.LockOrder
import DailyFresh.Concurrent.Finds
import DailyFresh.Results.RemovedProducts
import DailyFresh.Interleave.Snapshot
import DailyFresh.Results.HomePage
import DailyFresh.Site.OrderList
import DailyFresh.Results.PageLinks
import DailyFresh.Results.OrderIds
import DailyFresh.Regex.Backtrack
import DailyFresh.Regex.Engines
import DailyFresh.Site.RegisterPage
import DailyFresh.Results.EmailAddresses
import DailyFresh.Concurrent.Footprint
import DailyFresh.Concurrent.Holders
import DailyFresh.Interleave.Unwinding
import DailyFresh.Results.Isolation
import DailyFresh.Interleave.Completion
import DailyFresh.Results.Completion
import DailyFresh.Results.Ledger
import DailyFresh.Results.AccountRows
import DailyFresh.Results.FirstLogin
import DailyFresh.Interleave.Client
import DailyFresh.Site.Numbers
import DailyFresh.Site.CartPage
import DailyFresh.Concurrent.CartReads
import DailyFresh.Concurrent.CartWrites
import DailyFresh.Results.CartLines
import DailyFresh.Results.CartPage
import DailyFresh.Results.CartTally
import DailyFresh.Results.CartOrder
import DailyFresh.Regex.Groups
import DailyFresh.Site.Urls
import DailyFresh.Results.Urls
import DailyFresh.Concurrent.Counted
import DailyFresh.Results.CheckedRows
