import Seco.General.Program
import Seco.General.KeyedRows
import Seco.General.Runs
import Seco.General.Settling
import Seco.General.RegularExpressions
import Seco.General.Cuts
import Seco.General.Machines
import Seco.General.JSONDecoding
import Seco.General.Bounding
import Seco.General.ReusePools
import Seco.General.FieldOrder
import Seco.General.JSONEncoding
import Seco.General.OperationQueues
import Seco.DataLayer.Model
import Seco.DataLayer.APIManager
import Seco.DataLayer.Codable
import Seco.DataLayer.Realm
import Seco.DataLayer.DBManager
import Seco.DataLayer.Create
import Seco.DataLayer.DataManager
import Seco.DataLayer.StoreRefinement
import Seco.DataLayer.Operations
import Seco.DataLayer.Reentrancy
import Seco.DataLayer.FailedWrites
import Seco.DataLayer.Confinement
import Seco.DataLayer.Clients
import Seco.DomainLayer.RoutesInteractor
import Seco.ViewLayer.RoutesPresenter
import Seco.ViewLayer.ActivityIndicator
import Seco.ViewLayer.SVProgressHUD
import Seco.ViewLayer.RouteList
import Seco.ViewLayer.RouteMap
import Seco.ViewLayer.StopSelection
import Seco.ViewLayer.RouteListOrder
import Seco.ViewLayer.Fetching
import Seco.ViewLayer.RoutesScreen
import Seco.ViewLayer.FormView
import Seco.ViewLayer.IssueVC
import Seco.ViewLayer.EmailAddress
import Seco.ViewLayer.FormEquivalence
import Seco.ViewLayer.IssueTable
import Seco.ViewLayer.ReusedCells
import Seco.ViewLayer.Reopening
import Seco.DomainLayer.MainFlowCoordinator
import Seco.DomainLayer.Dismissal
import Seco.DomainLayer.StartUpAppSequencer
import Seco.DomainLayer.SavedIssues
import Seco.AppDelegate
import Seco.FailedSaves
