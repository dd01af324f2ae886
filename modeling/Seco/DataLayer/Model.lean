import Mathlib.Algebra.Order.Ring.Rat

namespace Seco

abbrev Double := ℚ

structure Date where
  timeIntervalSince1970 : Double
  deriving DecidableEq

structure IssueDB where
  route : String := ""
  name : String := ""
  surename : String := ""
  email : String := ""
  timestamp : Double := -1
  report : String := ""
  phone : String := ""
  deriving DecidableEq

structure Issue where
  route : String := ""
  name : String := ""
  surename : String := ""
  email : String := ""
  timestamp : Double := -1
  report : String := ""
  phone : String := ""
  deriving DecidableEq

structure IssueUI where
  route : String
  name : String
  surename : String
  email : String
  timestamp : Date
  report : String
  phone : String
  deriving DecidableEq

def IssueDB.initIssue (issue : Issue) : IssueDB where
  route := issue.route
  name := issue.name
  surename := issue.surename
  email := issue.email
  timestamp := issue.timestamp
  report := issue.report
  phone := issue.phone

def Issue.initIssueDB (issueDB : IssueDB) : Issue where
  route := issueDB.route
  name := issueDB.name
  surename := issueDB.surename
  email := issueDB.email
  timestamp := issueDB.timestamp
  report := issueDB.report
  phone := issueDB.phone

def Issue.initIssueUI (issueUI : IssueUI) : Issue where
  route := issueUI.route
  name := issueUI.name
  surename := issueUI.surename
  email := issueUI.email
  timestamp := issueUI.timestamp.timeIntervalSince1970
  report := issueUI.report
  phone := issueUI.phone

def IssueUI.initIssue (now : Date) (issue : Issue) : IssueUI where
  route := issue.route
  name := issue.name
  surename := issue.surename
  email := issue.email
  timestamp := if issue.timestamp < 0 then now else ⟨issue.timestamp⟩
  report := issue.report
  phone := issue.phone

@[simp] theorem Issue.initIssueDB_initIssue (issue : Issue) :
    Issue.initIssueDB (IssueDB.initIssue issue) = issue := rfl

@[simp] theorem IssueDB.initIssue_route (issue : Issue) :
    (IssueDB.initIssue issue).route = issue.route := rfl

@[simp] theorem Issue.initIssueUI_route (issueUI : IssueUI) :
    (Issue.initIssueUI issueUI).route = issueUI.route := rfl

theorem IssueUI.initIssue_initIssueUI_iff (now : Date) (issueUI : IssueUI) :
    IssueUI.initIssue now (Issue.initIssueUI issueUI) = issueUI ↔
      0 ≤ issueUI.timestamp.timeIntervalSince1970 ∨ issueUI.timestamp = now := by
  obtain ⟨route, name, surename, email, ⟨t⟩, report, phone⟩ := issueUI
  by_cases h : t < 0
  · simp [IssueUI.initIssue, Issue.initIssueUI, h, not_le.mpr h, eq_comm]
  · simp [IssueUI.initIssue, Issue.initIssueUI, h, not_lt.mp h]

structure PointAPI where
  latitude : Double
  longitude : Double
  deriving DecidableEq

structure OriginDestinationAPI where
  address : String
  point : PointAPI
  deriving DecidableEq

structure Stop where
  point : Option PointAPI
  id : Option Int
  deriving DecidableEq

structure RouteAPI where
  status : String
  origin : OriginDestinationAPI
  stops : List Stop
  destination : OriginDestinationAPI
  endTime : String
  startTime : String
  description : String
  driverName : String
  route : String
  deriving DecidableEq

structure Point where
  latitude : Double
  longitude : Double
  stopId : Option Int := none
  deriving DecidableEq

def Point.initPointAPI (pointAPI : PointAPI) (stopId : Option Int := none) : Point where
  latitude := pointAPI.latitude
  longitude := pointAPI.longitude
  stopId := stopId

structure Route where
  route : String
  driverName : String
  originAddress : String
  destinationAddress : String
  endTime : String
  startTime : String
  points : List Point
  hasIssue : Bool
  deriving DecidableEq

def Route.initRouteAPI (routeAPI : RouteAPI) (hasIssue : Bool) : Route where
  route := routeAPI.route
  driverName := routeAPI.driverName
  originAddress := routeAPI.origin.address
  destinationAddress := routeAPI.destination.address
  startTime := routeAPI.startTime
  endTime := routeAPI.endTime
  points := [Point.initPointAPI routeAPI.origin.point] ++
    routeAPI.stops.filterMap (fun stop =>
      match stop.point with
      | none => none
      | some uwpPoint => some (Point.initPointAPI uwpPoint stop.id)) ++
    [Point.initPointAPI routeAPI.destination.point]
  hasIssue := hasIssue

structure StopPoint where
  stopTime : String
  paid : Bool
  userName : String
  deriving DecidableEq

structure NSError where
  domain : String
  code : Int
  deriving DecidableEq

end Seco
