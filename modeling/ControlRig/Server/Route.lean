import ControlRig.Text.Blank

/-!
# Routes

The daemon answers on six paths. A path may be followed by slashes, and by a question mark with
anything after it; neither changes the route.
-/

namespace ControlRig

/-- What a path asks for. -/
inductive Route where
  | start
  | stop
  | list
  | update
  | status
  | health
  deriving DecidableEq, Repr

/-- The methods of the routes. -/
inductive HttpMethod where
  | get
  | post
  deriving DecidableEq, Repr

/-- The written form of a method. -/
def HttpMethod.text : HttpMethod → String
  | .get => "GET"
  | .post => "POST"

namespace Route

/-- Every route. -/
def all : List Route := [.start, .stop, .list, .update, .status, .health]

/-- The path of a route. -/
def path : Route → String
  | .start => "/start_configuration"
  | .stop => "/stop_configuration"
  | .list => "/list_configurations"
  | .update => "/update_configurations"
  | .status => "/status"
  | .health => "/health"

/-- The method of a route. -/
def method : Route → HttpMethod
  | .start | .stop | .update => .post
  | .list | .status | .health => .get

/-- The part of a URL that selects the route: what comes before the first question mark, without the
slashes at its end. -/
def pathOf (url : String) : String :=
  String.ofList (Text.dropEndWhile (· = '/') (url.toList.takeWhile (· ≠ '?')))

/-- The route of a URL. -/
def parse? (url : String) : Option Route :=
  all.find? (fun route => route.path = pathOf url)

end Route

end ControlRig
