/-
Opngms/Request.lean

The requests OPNGMS sends to an OPNsense box and the exceptions it raises.

Each request of the appliers in `app/connectors/opnsense/client.py` is one
constructor of `Request`, with the parts of its URL and body that vary.
`Request.path` is the URL path below `/api/`, `Request.mutating` tells the
requests that change the box from those that only read it: a search is a POST
in the OPNsense API but changes nothing.  An answer is a decoded JSON value or
an exception.
-/
import Opngms.Dialogue
import Opngms.Json

namespace Opngms

/-- `OpnsenseError` and its subclasses. -/
inductive OpnsenseError where
  | authError (status : Nat)
  | reachabilityError (message : String)
  | apiError (status : Nat) (message : String)
  | parseError
  deriving DecidableEq

/-- Every exception the modelled code raises. -/
inductive Raised where
  | opnsense (e : OpnsenseError)
  | unknownChangeKind (message : String)
  | invalidTemplate (message : String)
  | noInverse (message : String)
  | revertError (message : String)
  | invalidToken
  /-- The XML parser refused the document. -/
  | xmlError
  /-- The database driver refused a value of the wrong type. -/
  | dataError
  | http (status : Nat) (detail : String)
  | builtin (e : BuiltinError)
  deriving DecidableEq

/-- One request to the box. -/
inductive Request where
  | aliasSearch (phrase : Json)
  | aliasAdd (item : Dict)
  | aliasSet (uuid : String) (item : Dict)
  | aliasDel (uuid : String)
  | aliasReconfigure
  | modelSet (path root : String) (nested : Json)
  | modelReconfigure (path : String)
  | gridAdd (path row : String) (item : Json)
  | gridSet (path uuid row : String) (item : Json)
  | gridDel (path uuid : String)
  | ruleSearch (phrase : String)
  | ruleAdd (rule : Dict)
  | ruleSet (uuid : String) (rule : Dict)
  | ruleDel (uuid : String)
  | ruleApply
  | testSearch (phrase : String)
  | testAdd (test : Dict)
  | testSet (uuid : String) (test : Dict)
  | testDel (uuid : String)
  | serviceSearch
  | serviceGet (uuid : String)
  | serviceSet (uuid : String) (tests : String)
  | monitReconfigure
  | rulesetToggle (name : String)
  | policySearch (phrase : String)
  | policyGet
  | policyAdd (policy : Dict)
  | policySet (uuid : String) (policy : Dict)
  | policyDel (uuid : String)
  | idsReconfigure
  deriving DecidableEq

namespace Request

/-- The URL path of a request, below `/api/`. -/
def path : Request → String
  | aliasSearch _ => "firewall/alias/searchItem"
  | aliasAdd _ => "firewall/alias/addItem"
  | aliasSet u _ => "firewall/alias/setItem/" ++ u
  | aliasDel u => "firewall/alias/delItem/" ++ u
  | aliasReconfigure => "firewall/alias/reconfigure"
  | modelSet p _ _ => p
  | modelReconfigure p => p
  | gridAdd p _ _ => p
  | gridSet p u _ _ => p ++ "/" ++ u
  | gridDel p u => p ++ "/" ++ u
  | ruleSearch _ => "firewall/filter/searchRule"
  | ruleAdd _ => "firewall/filter/addRule"
  | ruleSet u _ => "firewall/filter/setRule/" ++ u
  | ruleDel u => "firewall/filter/delRule/" ++ u
  | ruleApply => "firewall/filter/apply"
  | testSearch _ => "monit/settings/searchTest"
  | testAdd _ => "monit/settings/addTest"
  | testSet u _ => "monit/settings/setTest/" ++ u
  | testDel u => "monit/settings/delTest/" ++ u
  | serviceSearch => "monit/settings/searchService"
  | serviceGet u => "monit/settings/getService/" ++ u
  | serviceSet u _ => "monit/settings/setService/" ++ u
  | monitReconfigure => "monit/service/reconfigure"
  | rulesetToggle n => "ids/settings/toggleRuleset/" ++ n ++ "/1"
  | policySearch _ => "ids/settings/searchPolicy"
  | policyGet => "ids/settings/getPolicy"
  | policyAdd _ => "ids/settings/addPolicy"
  | policySet u _ => "ids/settings/setPolicy/" ++ u
  | policyDel u => "ids/settings/delPolicy/" ++ u
  | idsReconfigure => "ids/service/reconfigure"

/-- Whether the request changes the box: its configuration, or the running
service it reloads. -/
def mutating : Request → Bool
  | aliasSearch _ | ruleSearch _ | testSearch _ | serviceSearch | serviceGet _
  | policySearch _ | policyGet => false
  | _ => true

end Request

/-- The answer to a request: `_decode`d JSON, or the exception `_request` or
`_decode` raised; a body that `_decode` cannot read is a `ParseError`, but one
nested too deeply a `RecursionError`. -/
abbrev Answer := Except Raised Json

abbrev Client := Dialogue Request (fun _ => Answer) Raised

/-- `_post` and `_get`. -/
def post (r : Request) : Client Json :=
  .ask r fun
    | .ok j => .pure j
    | .error e => .raise e

/-- `raise ApiError(0, message)`. -/
def refuse {α : Type} (message : String) : Client α :=
  .raise (.opnsense (.apiError 0 message))

/-- A built-in operation inside a program. -/
def builtin {α : Type} : Except BuiltinError α → Client α
  | .ok a => .pure a
  | .error e => .raise (.builtin e)

end Opngms
