import Phaze.Outbound.HostProfile
import Phaze.Shared.Uri

set_option autoImplicit false

/-!
# Plans and their URLs

`_plan`, `_Plan.url` and the requests of `read` in `services/remote_transport.py`. Every profile that the policy resolves
is a copy of the registered one with another pace, so it has the same host.
-/

namespace Phaze.Outbound

open Percent Substrings Uri

structure Plan where
  kind : RequestKind
  path : Str
  query : List (Str × Str)
deriving DecidableEq

-- Text that has no UTF-8 raises.
def Plan.url (plan : Plan) (host : Str) : Option Str :=
  let suffix := if plan.query.isEmpty then some [] else (urlencode plan.query).map (.scalar '?' :: ·)
  suffix.map fun suffix => str "https://" ++ host ++ plan.path ++ suffix

def robotsPlan : Plan := { kind := .robots, path := str "/robots.txt", query := [] }

/-! ## Terms -/

-- `_FIELD_ORDER.index`
def SearchField.rank : SearchField → Nat
  | .artist => 0
  | .event => 1
  | .date => 2
  | .other _ => 3

-- `grouped.setdefault(name, []).append(value)`
def setdefaultAppend (grouped : List (Str × List Str)) (name value : Str) : List (Str × List Str) :=
  if grouped.any fun entry => entry.1 = name then
    grouped.map fun entry => if entry.1 = name then (name, entry.2 ++ [value]) else entry
  else grouped ++ [(name, [value])]

def group (named : List (Str × Str)) : List (Str × List Str) :=
  named.foldl (fun grouped entry => setdefaultAppend grouped entry.1 entry.2) []

def sortedTerms (terms : List SearchTerm) : List SearchTerm :=
  terms.insertionSort fun one other => one.field.rank ≤ other.field.rank

def RemoteSearchRoute.groupedTerms (route : RemoteSearchRoute) (terms : List SearchTerm) : Option (List (Str × Str)) :=
  ((sortedTerms terms).mapM fun term => (route.termParameters.lookup term.field).map fun name => (name, term.value)).map
    fun named => (group named).map fun entry => (entry.1, (str " ").intercalate entry.2)

def RemoteSearchRoute.pagePair (route : RemoteSearchRoute) (page : Int) : List (Str × Str) :=
  route.pageParameter.toList.map fun name => (name, str (toString (page - 1 + route.pageOrigin)))

/-! ## Plans -/

inductive Refusal where
  | code (text : String)
  -- An exception that `read` does not catch.
  | raised
deriving DecidableEq

def findProfile (profiles : List ValidatedProfile) (providerId : String) : Option RemoteHostProfile :=
  (profiles.find? fun entry => entry.profile.providerId = providerId).map (·.profile)

def fetchPlan (profile : RemoteHostProfile) (reference : SourceReference) : Except Refusal Plan :=
  match profile.fetch with
  | none => .error (.code "route_not_allowed")
  | some route =>
      let nativeId := reference.identity.nativeId
      if reference.format ≠ route.format then .error (.code "format_mismatch")
      else if !route.accepts nativeId || nativeId = str "." || nativeId = str ".." then
        .error (.code "unauthorized_identity")
      else
        match quote nativeId with
        | none => .error .raised
        | some quoted =>
            .ok { kind := .fetch, path := replace nativeIdPlaceholder quoted route.pathTemplate,
                  query := route.fixedParameters }

def searchPlan (profile : RemoteHostProfile) (reference : SourceReference) (request : RemoteRequest) :
    Except Refusal Plan :=
  match profile.search with
  | none => .error (.code "route_not_allowed")
  | some route =>
      if reference.format ≠ route.format then .error (.code "format_mismatch")
      else if (request.terms.any fun term => term.field ∉ route.fields) || request.page > route.maxPage then
        .error (.code "search_not_allowed")
      else
        match route.groupedTerms request.terms with
        | none => .error .raised
        | some grouped =>
            .ok { kind := .search, path := route.path,
                  query := route.fixedParameters ++ grouped ++ route.pagePair request.page }

-- `_plan`
def plan (profiles : List ValidatedProfile) (reference : SourceReference) : Except Refusal Plan :=
  match reference.channel, reference.request with
  | .remote, some request =>
      match findProfile profiles reference.identity.providerId with
      | none => .error (.code "unknown_host_profile")
      | some profile =>
          if request.kind = .fetch then fetchPlan profile reference else searchPlan profile reference request
  | _, _ => .error (.code "not_remote")

/-! ## What a read sends -/

-- What comes back to the registry; nothing where the read raises.
structure Answer where
  bytesRead : Nat
  characters : Nat
  lines : Nat
deriving DecidableEq

-- How the ledger, the clock and the host let a read go.
structure World where
  -- The exchange for `/robots.txt` sends its request.
  robotsSent : Bool
  -- Robots let the request pass.
  robotsPass : Bool
  sent : Bool
  answer : Option Answer
deriving DecidableEq

-- The URLs of the requests of `read`, in their order.
def transportRead (profiles : List ValidatedProfile) (source : SourceReference) (world : World) : List Str :=
  match source.validate with
  | none => []
  | some reference =>
      match plan profiles reference, findProfile profiles reference.identity.providerId with
      | .ok plan, some profile =>
          let request := if world.sent then (plan.url profile.host).toList else []
          if profile.respectsRobots then
            let robots := if world.robotsSent then (robotsPlan.url profile.host).toList else []
            if world.robotsPass then robots ++ request else robots
          else request
      | _, _ => []

end Phaze.Outbound
