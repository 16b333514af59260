import CgGuide.KeyedTable
import CgGuide.DotNet
import CgGuide.Program
import CgGuide.Entities
import CgGuide.DbContext
import CgGuide.Repositories
import CgGuide.RoutesService
import CgGuide.RoutesRuns
import CgGuide.EditScript
import CgGuide.EditForm
import CgGuide.EditBinding
import CgGuide.Deferred
import CgGuide.RoutesListing
import CgGuide.Paging
import CgGuide.RoutesPaging
import CgGuide.RoutesColumns
import CgGuide.RoutesCounters
import CgGuide.Runs
import CgGuide.UnitOfWorkRuns
import CgGuide.ReadModifyWrite
import CgGuide.Exchange
import CgGuide.ProductsViewModel
import CgGuide.ProductsShown
import CgGuide.EditClients
import CgGuide.Dictionaries
import CgGuide.UrlHelperExtensions
import CgGuide.QueryStrings
import CgGuide.SearchParametersBinder
import CgGuide.FacetLinks
import CgGuide.ParameterLinks
import CgGuide.FacetBinding
import CgGuide.SearchPaging
import CgGuide.BusinessRules
import CgGuide.Validation
import CgGuide.Interleaving
import CgGuide.Account
import CgGuide.LoginCredentials
import CgGuide.LoginOwners
import CgGuide.UserNames
import CgGuide.MembershipProviders
import CgGuide.FormsMembershipService
import CgGuide.MembershipFailures
import CgGuide.MembershipRuns
import CgGuide.MembershipUpdates
import CgGuide.MembershipListing
import CgGuide.CompareRules
import CgGuide.Readings
import CgGuide.RangeRules
import CgGuide.CompareLaws
import CgGuide.DeleteRule
import CgGuide.ValidationErrors
import CgGuide.Languages
import CgGuide.UserTrackerLog
import CgGuide.EmailRule
import CgGuide.SearchSession
import CgGuide.FacetMenu
import CgGuide.SearchResults
import CgGuide.MembershipPasswords
import CgGuide.AccountModels
import CgGuide.SignIns
import CgGuide.Sessions
import CgGuide.SignInCredentials
import CgGuide.RemoveLogins
import CgGuide.ErrorHandling
import CgGuide.LazyInitialization
import CgGuide.SimpleMembershipInitializer
import CgGuide.MembershipStarts
import CgGuide.NewestAnswer
import CgGuide.RoutesGrid
import CgGuide.GridPages
import CgGuide.Lineages
import CgGuide.EditLineages
