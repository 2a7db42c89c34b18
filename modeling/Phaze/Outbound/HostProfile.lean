import Phaze.Outbound.References
import Phaze.Shared.Guards
import Phaze.Shared.Substrings

set_option autoImplicit false

/-!
# Host profiles

`tracklist_providers/host_profile.py`: the host and the routes that core declares for a provider. The fields that pace
or limit a request have no part in its URL and are left out.
-/

namespace Phaze.Outbound

open Percent Guards Substrings

structure RemoteSearchRoute where
  fields : List SearchField
  format : String
  maxPage : Nat
  path : Str
  termParameters : List (SearchField × Str)
  pageParameter : Option Str
  pageOrigin : Nat
  fixedParameters : List (Str × Str)
deriving DecidableEq

structure RemoteFetchRoute where
  -- `re.fullmatch(native_id_pattern, native_id)`
  accepts : Str → Bool
  format : String
  pathTemplate : Str
  fixedParameters : List (Str × Str)

structure RemoteHostProfile where
  providerId : String
  search : Option RemoteSearchRoute
  fetch : Option RemoteFetchRoute
  host : Str
  -- `robots == "respect"`
  respectsRobots : Bool

def nativeIdPlaceholder : Str := str "{native_id}"

def slash : CodePoint := .scalar '/'

/-! ## Patterns -/

-- `_SEGMENT`
def isSegmentPoint : CodePoint → Bool
  | .scalar char => char.isAlphanum || char ∈ "._~!$&'()*+,;=:@-".toList
  | .surrogate _ => false

def plainSegment (segment : Str) : Bool := !segment.isEmpty && segment.all isSegmentPoint

-- `_PATH`: one plain segment at least, and perhaps a slash at the end
def matchesPath (path : Str) : Bool :=
  match path.splitOn slash with
  | [] :: segments =>
      let plain := if segments.getLast? = some [] then segments.dropLast else segments
      !plain.isEmpty && plain.all plainSegment
  | _ => false

-- `_PARAMETER_NAME`
def matchesParameterName (name : Str) : Bool :=
  1 ≤ name.length && name.length ≤ 64 && name.all fun point =>
    match point with
    | .scalar char => char.isAlphanum || char ∈ "._~-".toList
    | .surrogate _ => false

def isLabelPoint (hyphen : Bool) : CodePoint → Bool
  | .scalar char => char.isLower || char.isDigit || (hyphen && char = '-')
  | .surrogate _ => false

def matchesLabel (label : Str) : Bool :=
  label.length ≤ 63 && (label.head?.any (isLabelPoint false)) && (label.getLast?.any (isLabelPoint false)) &&
    label.all (isLabelPoint true)

-- `_HOST`: two labels at least, the last one starting with a letter
def matchesHost (host : Str) : Bool :=
  let labels := host.splitOn (.scalar '.')
  host.length ≤ 253 && 2 ≤ labels.length && labels.all matchesLabel &&
    labels.getLast?.any fun label => label.head?.any fun point =>
      match point with
      | .scalar char => char.isLower
      | .surrogate _ => false

/-! ## Validation -/

def validatePath (path : Str) : Except String Unit :=
  require (matchesPath path && (path.splitOn slash).all fun segment => segment ≠ str "." && segment ≠ str "..")
    "A route path is an absolute path of plain segments, without a host, query or dot segment"

def uniqueNames (names : List Str) : Except String Unit :=
  require names.Nodup "Query parameter names must be unique"

def constrainedParameters (parameters : List (Str × Str)) : Bool :=
  parameters.length ≤ 8 && parameters.all fun parameter =>
    matchesParameterName parameter.1 && 1 ≤ parameter.2.length && parameter.2.length ≤ 256

def RemoteSearchRoute.constrained (route : RemoteSearchRoute) : Bool :=
  !route.fields.isEmpty && route.format.length ≤ maxText && 0 < route.maxPage && route.maxPage ≤ maxSearchPage &&
    route.path.length ≤ 512 && !route.termParameters.isEmpty &&
    (route.termParameters.all fun parameter => matchesParameterName parameter.2) &&
    route.pageParameter.all matchesParameterName && route.pageOrigin ≤ 1 && constrainedParameters route.fixedParameters

-- `validate_route`
def RemoteSearchRoute.validateRoute (route : RemoteSearchRoute) : Except String Unit := do
  validatePath route.path
  require (route.pageOrigin = 1 || route.pageParameter.isSome) "A page origin other than 1 needs a page parameter"
  let mapped := route.termParameters.map (·.1)
  require (mapped.Nodup && mapped.all (· ∈ route.fields) && route.fields.all (· ∈ mapped))
    "Every accepted search field maps to exactly one query parameter"
  require (route.maxPage ≤ 1 || route.pageParameter.isSome) "A search with more than one page needs a page parameter"
  let terms := route.termParameters.map (·.2)
  let others := route.pageParameter.toList ++ route.fixedParameters.map (·.1)
  uniqueNames others
  require (terms.all (· ∉ others)) "Query parameter names must be unique"

def RemoteFetchRoute.constrained (route : RemoteFetchRoute) : Bool :=
  route.format.length ≤ maxText && route.pathTemplate.length ≤ 512 && constrainedParameters route.fixedParameters

-- `compile_pattern`
def RemoteFetchRoute.compilePattern (route : RemoteFetchRoute) : Except String Unit := do
  require (count nativeIdPlaceholder route.pathTemplate = 1 && nativeIdPlaceholder ∈ route.pathTemplate.splitOn slash)
    "A fetch path template holds the native ID placeholder once, as a whole segment"
  validatePath (replace nativeIdPlaceholder (str "id") route.pathTemplate)
  uniqueNames (route.fixedParameters.map (·.1))

def RemoteHostProfile.constrained (profile : RemoteHostProfile) : Bool :=
  isProviderId profile.providerId && profile.search.all RemoteSearchRoute.constrained &&
    profile.fetch.all RemoteFetchRoute.constrained && profile.host.length ≤ 253

-- `require_route`, after the validators of the routes
def RemoteHostProfile.requireRoute (profile : RemoteHostProfile) : Except String Unit := do
  profile.search.forM RemoteSearchRoute.validateRoute
  profile.fetch.forM RemoteFetchRoute.compilePattern
  require (profile.search.isSome || profile.fetch.isSome) "A host profile declares at least one route"
  require (matchesHost profile.host) "A host is one lowercase DNS name: no scheme, port, user-info, path or IP literal"

structure ValidatedProfile where
  profile : RemoteHostProfile
  constrained : profile.constrained = true
  required : profile.requireRoute = .ok ()

end Phaze.Outbound
