import Phaze.Outbound.Registry
import Phaze.Outbound.Routes

set_option autoImplicit false

/-!
# What an invocation can ask of a host

Whatever a provider reads, its URLs are those of the routes of its profile, filled in from the context or the candidate.
-/

namespace Phaze.Outbound

open Percent Guards Substrings Uri

/-! ## Grouping -/

-- Each name once, where it comes first.
def firsts (names : List Str) : List Str := names.reverse.dedup.reverse

theorem firsts_append (names : List Str) (name : Str) :
    firsts (names ++ [name]) = if name ∈ names then firsts names else firsts names ++ [name] := by
  by_cases known : name ∈ names <;> simp [firsts, known]

@[simp]
theorem mem_firsts {names : List Str} {name : Str} : name ∈ firsts names ↔ name ∈ names := by
  simp [firsts]

def valuesOf (named : List (Str × Str)) (name : Str) : List Str :=
  (named.filter fun entry => entry.1 = name).map (·.2)

theorem valuesOf_append (named : List (Str × Str)) (entry : Str × Str) (name : Str) :
    valuesOf (named ++ [entry]) name = valuesOf named name ++ if entry.1 = name then [entry.2] else [] := by
  by_cases same : entry.1 = name <;> simp [valuesOf, List.filter_append, same]

theorem group_eq (named : List (Str × Str)) :
    group named = (firsts (named.map (·.1))).map fun name => (name, valuesOf named name) := by
  induction named using List.reverseRecOn with
  | nil => rfl
  | append_singleton named entry ih =>
    have step : group (named ++ [entry]) = setdefaultAppend (group named) entry.1 entry.2 := by
      simp [group, List.foldl_append]
    have present : (group named).any (fun other => other.1 = entry.1) = true ↔ entry.1 ∈ named.map (·.1) := by
      rw [ih, List.any_map]
      simp [Function.comp_def]
    rw [step, setdefaultAppend, List.map_append, List.map_singleton, firsts_append]
    by_cases known : entry.1 ∈ named.map (·.1)
    next =>
      rw [if_pos (present.mpr known), if_pos known, ih, List.map_map]
      refine List.map_congr_left fun name _ => ?_
      by_cases same : name = entry.1
      · subst same
        simp [valuesOf_append]
      · simp [valuesOf_append, same, Ne.symm same]
    next =>
      rw [if_neg (mt present.mp known), if_neg known, ih, List.map_append, List.map_singleton]
      congr 1
      · refine List.map_congr_left fun name member => ?_
        have other : entry.1 ≠ name := by
          rintro rfl
          exact known (mem_firsts.mp member)
        simp [valuesOf_append, other]
      · have none : valuesOf named entry.1 = [] := by
          rw [valuesOf, List.map_eq_nil_iff, List.filter_eq_nil_iff]
          intro other member same
          exact known (List.mem_map.mpr ⟨other, member, by simpa using same⟩)
        simp [valuesOf_append, none]

/-! ## What may be asked -/

def RemoteSearchRoute.named (route : RemoteSearchRoute) (terms : List SearchTerm) : List (Str × Str) :=
  terms.filterMap fun term => (route.termParameters.lookup term.field).map fun name => (name, term.value)

-- The terms of a context, in the order artist, event, date, joined for each parameter.
def RemoteSearchRoute.parameters (route : RemoteSearchRoute) (context : RecordingContext) : List (Str × Str) :=
  let named := route.named (searchTerms route context)
  (firsts (named.map (·.1))).map fun name => (name, (str " ").intercalate (valuesOf named name))

def segmentsOf (path : Str) : List Str := (path.splitOn slash).drop 1

inductive Invocation where
  | discover (providerId : String) (context : RecordingContext) (cursor : Option OpaqueCursor)
  | load (candidate : ProviderCandidate)

def Invocation.providerId : Invocation → String
  | .discover providerId _ _ => providerId
  | .load candidate => candidate.identity.providerId

def ProviderRegistry.urls (registry : ProviderRegistry) (budget : DiscoveryBudget) (reads : List Read) :
    Invocation → List Str
  | .discover providerId context cursor => registry.discover providerId context budget cursor reads
  | .load candidate => registry.load candidate budget reads

-- A URL as it is written, and as the host reads it.
structure Asks (profile : RemoteHostProfile) (url path : Str) (segments : List Str) (pairs : List (Str × Str)) :
    Prop where
  written : ∃ suffix, url = str "https://" ++ profile.host ++ path ++ suffix
  read : target url = some { host := profile.host, segments, pairs }

def Invocation.MayAsk (invocation : Invocation) (profile : RemoteHostProfile) (url : Str) : Prop :=
  Asks profile url (str "/robots.txt") [str "robots.txt"] [] ∨
    match invocation with
    | .discover _ context _ =>
        ∃ (route : RemoteSearchRoute) (page : Int), profile.search = some route ∧ 1 ≤ page ∧ page ≤ route.maxPage ∧
          Asks profile url route.path (segmentsOf route.path)
            (route.fixedParameters ++ route.parameters context ++ route.pagePair page)
    | .load candidate =>
        ∃ (route : RemoteFetchRoute) (segment : Str), profile.fetch = some route ∧
          unquote segment = some candidate.identity.nativeId ∧ slash ∉ segment ∧
          Asks profile url (replace nativeIdPlaceholder segment route.pathTemplate)
            ((segmentsOf route.pathTemplate).map fun part =>
              if part = nativeIdPlaceholder then candidate.identity.nativeId else part)
            route.fixedParameters

/-! ## Reads -/

variable {profiles : List ValidatedProfile} {source : SourceReference} {world : World} {url : Str}

theorem read_authorized (effects : BoundedEffects) (read : Read) (other : SourceReference) :
    (effects.read profiles read).1.authorized other = effects.authorized other := by
  simp only [BoundedEffects.read, BoundedEffects.violate, BoundedEffects.charge]
  repeat' split
  all_goals rfl

theorem read_sent {effects : BoundedEffects} {read : Read} (sent : url ∈ (effects.read profiles read).2) :
    effects.authorized read.source = true ∧ url ∈ transportRead profiles read.source read.world := by
  simp only [BoundedEffects.read] at sent
  split at sent
  next => cases sent
  next allowed =>
    refine ⟨by simpa using allowed, ?_⟩
    repeat' split at sent
    all_goals first
      | exact sent
      | cases sent

theorem run_sent {effects : BoundedEffects} {reads : List Read} (sent : url ∈ effects.run profiles reads) :
    ∃ read ∈ reads, effects.authorized read.source = true ∧ url ∈ transportRead profiles read.source read.world := by
  induction reads generalizing effects with
  | nil => cases sent
  | cons read rest ih =>
    rcases List.mem_append.mp sent with now | later
    · exact ⟨read, List.mem_cons_self, read_sent now⟩
    · obtain ⟨other, member, authorized, found⟩ := ih later
      rw [read_authorized] at authorized
      exact ⟨other, List.mem_cons_of_mem _ member, authorized, found⟩

theorem sent_url {sends : Bool} {planned : Plan} {host : Str}
    (sent : url ∈ (if sends = true then (planned.url host).toList else [] : List Str)) : planned.url host = some url := by
  cases sends with
  | false => simp at sent
  | true => simpa using sent

theorem validate_some {reference : SourceReference} (validated : source.validate = some reference) :
    source.valid = true ∧ reference = source := by
  rw [SourceReference.validate] at validated
  split at validated
  next valid => exact ⟨valid, (Option.some.inj validated).symm⟩
  next => cases validated

theorem transportRead_sent (sent : url ∈ transportRead profiles source world) :
    source.valid = true ∧ ∃ planned profile, plan profiles source = .ok planned ∧
      findProfile profiles source.identity.providerId = some profile ∧
      (robotsPlan.url profile.host = some url ∨ planned.url profile.host = some url) := by
  unfold transportRead at sent
  split at sent
  next => cases sent
  next reference validated =>
    obtain ⟨valid, rfl⟩ := validate_some validated
    refine ⟨valid, ?_⟩
    split at sent
    next planned profile planned' found =>
      refine ⟨planned, profile, planned', found, ?_⟩
      by_cases respects : profile.respectsRobots = true
      next =>
        simp only [respects, if_true] at sent
        by_cases pass : world.robotsPass = true
        next =>
          simp only [pass, if_true] at sent
          exact (List.mem_append.mp sent).imp sent_url sent_url
        next =>
          simp only [pass] at sent
          exact .inl (sent_url sent)
      next =>
        simp only [respects] at sent
        exact .inr (sent_url sent)
    next => cases sent

/-! ## URLs -/

variable {profile : RemoteHostProfile}

theorem requireRoute_parts (required : profile.requireRoute = .ok ()) :
    (∀ route, profile.search = some route → route.validateRoute = .ok ()) ∧
      (∀ route, profile.fetch = some route → route.compilePattern = .ok ()) ∧ matchesHost profile.host = true := by
  simp only [RemoteHostProfile.requireRoute, bind_ok, require_ok] at required
  obtain ⟨_, search, _, fetch, _, -, host⟩ := required
  refine ⟨fun route there => ?_, fun route there => ?_, host⟩
  · rw [there] at search
    exact search
  · rw [there] at fetch
    exact fetch

theorem findProfile_valid {providerId : String} (found : findProfile profiles providerId = some profile) :
    profile.requireRoute = .ok () := by
  obtain ⟨entry, -, rfl⟩ := Option.map_eq_some_iff.mp found
  exact entry.required

theorem url_asks (host : matchesHost profile.host = true) {planned : Plan} {segments results : List Str}
    (split : planned.path.splitOn slash = [] :: segments) (nonempty : segments ≠ [])
    (clear : ∀ segment ∈ segments, ∀ point ∈ segment, point ∉ str "?#")
    (read : segments.mapM readSegment = some results) (written : planned.url profile.host = some url) :
    Asks profile url planned.path results planned.query := by
  obtain ⟨rest, path, parts⟩ := splitOn_rooted split nonempty
  obtain ⟨named, delimited⟩ := matchesHost_clear host
  have free := splitOn_clear parts clear
  obtain ⟨suffix, suffix', rfl⟩ := Option.map_eq_some_iff.mp written
  refine ⟨⟨suffix, rfl⟩, ?_⟩
  rw [path]
  cases pairs : planned.query with
  | nil =>
    obtain rfl : [] = suffix := by simpa [pairs] using suffix'
    exact target_https none named delimited free (by simp) (parts ▸ read) rfl
  | cons pair others =>
    simp only [pairs, List.isEmpty_cons, Bool.false_eq_true, if_false, Option.map_eq_some_iff] at suffix'
    obtain ⟨quoted, encoded, rfl⟩ := suffix'
    refine target_https (some quoted) named delimited free (fun text same inside => ?_) (parts ▸ read)
      (readQuery_urlencode (by simp) encoded)
    obtain rfl := Option.some.inj same
    rcases urlencode_mem encoded _ inside with plain | equals | ampersand
    · exact absurd plain (by decide)
    · exact absurd equals (by decide)
    · exact absurd ampersand (by decide)

theorem kept_read {segments : List Str} (kept : ∀ segment ∈ segments, Kept segment) :
    segments.mapM readSegment = some segments :=
  mapM_some.mpr (List.forall₂_same.mpr fun segment member => (kept segment member).read)

theorem kept_clear {segments : List Str} (kept : ∀ segment ∈ segments, Kept segment) :
    ∀ segment ∈ segments, ∀ point ∈ segment, point ∉ str "?#" := by
  intro segment member point inside listed
  exact isSegmentPoint_clear ((kept segment member).points point inside) (List.mem_append_left (str "{}")
    (List.mem_append_right (str "/") listed))

theorem robots_asks (host : matchesHost profile.host = true) (written : robotsPlan.url profile.host = some url) :
    Asks profile url (str "/robots.txt") [str "robots.txt"] [] := by
  have kept : ∀ segment ∈ [str "robots.txt"], Kept segment := by
    intro segment member
    obtain rfl := List.mem_singleton.mp member
    exact ⟨by decide, by decide, by decide⟩
  exact url_asks host (show robotsPlan.path.splitOn slash = [] :: [str "robots.txt"] by decide) (by simp) (kept_clear kept) (kept_read kept) written

theorem search_asks (required : profile.requireRoute = .ok ()) {route : RemoteSearchRoute}
    (search : profile.search = some route) {planned : Plan} (path : planned.path = route.path)
    (written : planned.url profile.host = some url) :
    Asks profile url route.path (segmentsOf route.path) planned.query := by
  obtain ⟨searches, -, host⟩ := requireRoute_parts required
  have valid := searches route search
  simp only [RemoteSearchRoute.validateRoute, bind_ok] at valid
  obtain ⟨_, valid, -⟩ := valid
  obtain ⟨segments, split, nonempty, kept⟩ := validatePath_segments valid
  have asks := url_asks host (path ▸ split) nonempty (kept_clear kept) (kept_read kept) written
  rw [path] at asks
  simpa [segmentsOf, split] using asks

theorem fetch_asks (required : profile.requireRoute = .ok ()) {route : RemoteFetchRoute}
    (fetch : profile.fetch = some route) {nativeId quoted : Str} (encoded : quote nativeId = some quoted)
    (named : nativeId ≠ str "." ∧ nativeId ≠ str "..") {planned : Plan}
    (path : planned.path = replace nativeIdPlaceholder quoted route.pathTemplate)
    (written : planned.url profile.host = some url) :
    Asks profile url (replace nativeIdPlaceholder quoted route.pathTemplate)
      ((segmentsOf route.pathTemplate).map fun part => if part = nativeIdPlaceholder then nativeId else part)
      planned.query := by
  obtain ⟨-, fetches, host⟩ := requireRoute_parts required
  obtain ⟨inits, tails, template, kept, filled⟩ := compilePattern_segments (fetches route fetch)
  have split := filled quoted (not_quoted_mem encoded (by decide))
  have before : ∀ segment ∈ inits, Kept segment := fun segment member => kept segment (List.mem_append_left _ member)
  have after : ∀ segment ∈ tails, Kept segment := fun segment member => kept segment (List.mem_append_right _ member)
  have clear : ∀ segment ∈ inits ++ quoted :: tails, ∀ point ∈ segment, point ∉ str "?#" := by
    intro segment member
    rcases List.mem_append.mp member with early | later
    · exact kept_clear before segment early
    · rcases List.mem_cons.mp later with rfl | tail
      · intro point inside listed
        have reserved : ∀ other ∈ str "?#", other.quoted = false := by decide
        exact absurd (quote_quoted encoded point inside) (by rw [reserved point listed]; decide)
      · exact kept_clear after segment tail
  have middle : readSegment quoted = some nativeId := by
    simp [readSegment, unquote_quote encoded, named.1, named.2]
  have read : (inits ++ quoted :: tails).mapM readSegment = some (inits ++ nativeId :: tails) := by
    simp [List.mapM_append, kept_read before, kept_read after, middle]
  have same : ∀ segments : List Str, (∀ segment ∈ segments, Kept segment) →
      (segments.map fun part => if part = nativeIdPlaceholder then nativeId else part) = segments := by
    intro segments kept
    exact (List.map_congr_left fun part member => if_neg (kept part member).braceless).trans segments.map_id'
  have asks := url_asks host (path ▸ split) (by simp) clear read written
  rw [path] at asks
  simpa [segmentsOf, template, same inits before, same tails after] using asks

/-! ## Plans -/

theorem plan_remote {planned : Plan} (ok : plan profiles source = .ok planned)
    (found : findProfile profiles source.identity.providerId = some profile) :
    ∃ request, source.channel = .remote ∧ source.request = some request ∧
      (if request.kind = .fetch then fetchPlan profile source else searchPlan profile source request) = .ok planned := by
  unfold plan at ok
  split at ok
  next request channel present =>
    simp only [found] at ok
    exact ⟨request, channel, present, ok⟩
  next => cases ok

theorem fetchPlan_ok {planned : Plan} (ok : fetchPlan profile source = .ok planned) :
    ∃ route quoted, profile.fetch = some route ∧ quote source.identity.nativeId = some quoted ∧
      (source.identity.nativeId ≠ str "." ∧ source.identity.nativeId ≠ str "..") ∧
      planned.path = replace nativeIdPlaceholder quoted route.pathTemplate ∧
      planned.query = route.fixedParameters := by
  unfold fetchPlan at ok
  split at ok
  next => cases ok
  next route fetch =>
    simp only at ok
    split at ok
    next => cases ok
    next =>
      split at ok
      next => cases ok
      next accepted =>
        simp only [Bool.or_eq_true, decide_eq_true_eq, not_or] at accepted
        split at ok
        next => cases ok
        next quoted encoded =>
          obtain rfl := Except.ok.inj ok
          exact ⟨route, quoted, fetch, encoded, ⟨accepted.1.2, accepted.2⟩, rfl, rfl⟩

theorem searchPlan_ok {planned : Plan} {request : RemoteRequest} (ok : searchPlan profile source request = .ok planned) :
    ∃ route grouped, profile.search = some route ∧ route.groupedTerms request.terms = some grouped ∧
      planned.path = route.path ∧
      planned.query = route.fixedParameters ++ grouped ++ route.pagePair request.page := by
  unfold searchPlan at ok
  split at ok
  next => cases ok
  next route search =>
    split at ok
    next => cases ok
    next =>
      split at ok
      next => cases ok
      next =>
        split at ok
        next => cases ok
        next grouped found =>
          obtain rfl := Except.ok.inj ok
          exact ⟨route, grouped, search, found, rfl, rfl⟩

/-! ## Invocations -/

theorem searchTerms_sorted (route : RemoteSearchRoute) (context : RecordingContext) :
    sortedTerms (searchTerms route context) = searchTerms route context := by
  refine List.Pairwise.insertionSort_eq ?_
  refine List.Pairwise.filter _ (List.Pairwise.filterMap _ (R := fun one other => one.1.rank ≤ other.1.rank) ?_ ?_)
  · intro one other before term found term' found'
    have field : ∀ (fact : SearchField × Fact) (term : SearchTerm), (if fact.1 ∈ route.fields then
        fact.2.usable.map fun value => { field := fact.1, value } else none) = some term → term.field = fact.1 := by
      intro fact term found
      split at found
      next =>
        obtain ⟨value, -, rfl⟩ := Option.map_eq_some_iff.mp found
        rfl
      next => cases found
    rw [field one term found, field other term' found']
    exact before
  · simp [RecordingContext.facts, SearchField.rank]

theorem mapM_filterMap {α β : Type} {f : α → Option β} {items : List α} {results : List β}
    (each : items.mapM f = some results) : items.filterMap f = results := by
  induction mapM_some.mp each with
  | nil => rfl
  | cons found _ ih => rw [List.filterMap_cons_some found, ih (mapM_some.mpr ‹_›)]

theorem groupedTerms_parameters {route : RemoteSearchRoute} {context : RecordingContext} {grouped : List (Str × Str)}
    (found : route.groupedTerms (searchTerms route context) = some grouped) : grouped = route.parameters context := by
  rw [RemoteSearchRoute.groupedTerms, searchTerms_sorted] at found
  obtain ⟨named, each, rfl⟩ := Option.map_eq_some_iff.mp found
  have same := mapM_filterMap each
  rw [group_eq, List.map_map, ← same]
  rfl

theorem authorized_minted {effects : BoundedEffects} (authorized : effects.authorized source = true)
    {request : RemoteRequest} (channel : source.channel = .remote) (present : source.request = some request) :
    source.firstPage request ∈ effects.minted ∧
      request.page ≤ (if request.kind = .search then effects.maxSearchPage else 1 : Nat) := by
  rw [BoundedEffects.authorized, if_neg (by simp [channel])] at authorized
  split at authorized
  next => cases authorized
  next reference validated =>
    obtain ⟨-, rfl⟩ := validate_some validated
    simp only [present, Bool.and_eq_true, decide_eq_true_eq] at authorized
    exact authorized

theorem valid_page (valid : source.valid = true) {request : RemoteRequest} (present : source.request = some request) :
    1 ≤ request.page := by
  have checked : request.valid = true := by
    simp only [SourceReference.valid, present, Option.all_some, Bool.and_eq_true] at valid
    exact valid.1.1.1.2
  simp only [RemoteRequest.valid, Bool.and_eq_true, decide_eq_true_eq] at checked
  exact checked.1.1.1.1.2

theorem mintSearch_mem {registry : ProviderRegistry} {providerId : String} {context : RecordingContext}
    {minted : List SourceReference} (mints : registry.mintSearch providerId context = some minted)
    {reference : SourceReference} (member : reference ∈ minted) :
    ∃ profile route, findProfile registry.profiles providerId = some profile ∧ profile.search = some route ∧
      reference.identity.providerId = providerId ∧
      reference.request = some { kind := .search, terms := searchTerms route context, page := 1 } := by
  rw [ProviderRegistry.mintSearch] at mints
  split at mints
  next =>
    obtain rfl := Option.some.inj mints
    cases member
  next route search =>
    obtain ⟨profile, found, search⟩ := Option.bind_eq_some_iff.mp search
    simp only at mints
    split at mints
    next =>
      obtain rfl := Option.some.inj mints
      cases member
    next =>
      obtain ⟨whole, validated, rfl⟩ := Option.map_eq_some_iff.mp mints
      obtain rfl := List.mem_singleton.mp member
      obtain ⟨-, rfl⟩ := validate_some validated
      exact ⟨profile, route, found, search, rfl, rfl⟩

theorem mintFetch_mem {registry : ProviderRegistry} {candidate : ProviderCandidate} {minted : List SourceReference}
    (mints : registry.mintFetch candidate = some minted) {reference : SourceReference} (member : reference ∈ minted) :
    reference.identity = candidate.identity ∧ reference.request = some { kind := .fetch, terms := [], page := 1 } := by
  rw [ProviderRegistry.mintFetch] at mints
  split at mints
  next =>
    obtain rfl := Option.some.inj mints
    cases member
  next =>
    split at mints
    next =>
      obtain ⟨whole, validated, rfl⟩ := Option.map_eq_some_iff.mp mints
      obtain rfl := List.mem_singleton.mp member
      obtain ⟨-, rfl⟩ := validate_some validated
      exact ⟨rfl, rfl⟩
    next => cases mints

theorem discover_asks {registry : ProviderRegistry} {providerId : String} {context : RecordingContext}
    {budget : DiscoveryBudget} {cursor : Option OpaqueCursor} {reads : List Read}
    (sent : url ∈ registry.discover providerId context budget cursor reads) :
    ∃ profile, findProfile registry.profiles providerId = some profile ∧
      (Invocation.discover providerId context cursor).MayAsk profile url := by
  rw [ProviderRegistry.discover] at sent
  iterate 4
    split at sent
    · cases sent
  split at sent
  next => cases sent
  next minted mints =>
    obtain ⟨read, -, authorized, sent⟩ := run_sent sent
    obtain ⟨valid, planned, profile, ok, found, written⟩ := transportRead_sent sent
    obtain ⟨request, channel, present, ok⟩ := plan_remote ok found
    obtain ⟨member, within⟩ := authorized_minted authorized channel present
    obtain ⟨other, route, found', search, id, asked⟩ := mintSearch_mem mints member
    simp only [SourceReference.firstPage] at id asked
    rw [id] at found
    obtain rfl := Option.some.inj (found'.symm.trans found)
    have required := findProfile_valid found
    obtain ⟨-, -, host⟩ := requireRoute_parts required
    refine ⟨other, found, ?_⟩
    obtain ⟨kind, terms⟩ : request.kind = .search ∧ request.terms = searchTerms route context := by
      simpa using asked
    rcases written with robots | written
    · exact .inl (robots_asks host robots)
    · rw [if_neg (by simp [kind])] at ok
      obtain ⟨route', grouped, search', groups, path, query⟩ := searchPlan_ok ok
      obtain rfl := Option.some.inj (search.symm.trans search')
      rw [terms] at groups
      obtain rfl := groupedTerms_parameters groups
      refine .inr ⟨route, request.page, search, valid_page valid present, ?_, query ▸ search_asks required search path written⟩
      simpa [kind, BoundedEffects.new, found, search] using within

theorem load_asks {registry : ProviderRegistry} {candidate : ProviderCandidate} {budget : DiscoveryBudget}
    {reads : List Read} (sent : url ∈ registry.load candidate budget reads) :
    ∃ profile, findProfile registry.profiles candidate.identity.providerId = some profile ∧
      (Invocation.load candidate).MayAsk profile url := by
  rw [ProviderRegistry.load] at sent
  iterate 2
    split at sent
    · cases sent
  split at sent
  next => cases sent
  next minted mints =>
    obtain ⟨read, -, authorized, sent⟩ := run_sent sent
    obtain ⟨valid, planned, profile, ok, found, written⟩ := transportRead_sent sent
    obtain ⟨request, channel, present, ok⟩ := plan_remote ok found
    obtain ⟨member, -⟩ := authorized_minted authorized channel present
    obtain ⟨id, asked⟩ := mintFetch_mem mints member
    simp only [SourceReference.firstPage] at id asked
    rw [id] at found
    have required := findProfile_valid found
    obtain ⟨-, -, host⟩ := requireRoute_parts required
    refine ⟨profile, found, ?_⟩
    have kind : request.kind = .fetch := by
      simp only [Option.some.injEq, RemoteRequest.mk.injEq] at asked
      exact asked.1
    rcases written with robots | written
    · exact .inl (robots_asks host robots)
    · rw [if_pos kind] at ok
      obtain ⟨route, quoted, fetch, encoded, named, path, query⟩ := fetchPlan_ok ok
      rw [id] at encoded named
      exact .inr ⟨route, quoted, fetch, unquote_quote encoded, not_quoted_mem encoded (by decide),
        query ▸ fetch_asks required fetch encoded named path written⟩

/-- Whatever the provider reads, every URL that is sent on behalf of an invocation is the robots file or a route of its
profile, filled in from the context or the candidate, and the host reads exactly that off it. -/
theorem urls_stay_on_routes (registry : ProviderRegistry) (invocation : Invocation) (budget : DiscoveryBudget)
    (reads : List Read) (url : Str) (sent : url ∈ registry.urls budget reads invocation) :
    ∃ profile, findProfile registry.profiles invocation.providerId = some profile ∧ invocation.MayAsk profile url := by
  cases invocation with
  | discover providerId context cursor => exact discover_asks sent
  | load candidate => exact load_asks sent

-- `[^\x00-\x20\x7f#<>\[\]|{}]{1,255}`
def matchesKey (nativeId : Str) : Bool :=
  1 ≤ nativeId.length && nativeId.length ≤ 255 && nativeId.all fun point =>
    match point with
    | .scalar char => 32 < char.toNat && char.toNat ≠ 127 && point ∉ str "#<>[]|\x7b\x7d"
    | .surrogate _ => true

def mixesdb : ValidatedProfile where
  profile :=
    { providerId := "mixesdb"
      search := none
      fetch := some
        { accepts := matchesKey, format := "mixesdb_rest_page_json"
          pathTemplate := str "/w/rest.php/v1/page/{native_id}", fixedParameters := [] }
      host := str "www.mixesdb.com"
      respectsRobots := true }
  constrained := by decide
  required := by decide

def mixesdbRegistry : ProviderRegistry :=
  { descriptors := [{ id := "mixesdb", discovery := true }], disabled := [], profiles := [mixesdb]
    contextKey := fun _ => [] }

-- A key of reserved characters, one that needs two bytes, and an escape.
def pageCandidate : ProviderCandidate :=
  { identity := { providerId := "mixesdb", nativeId := str "../AC/DC_@_Café?a=b&c%2F" }, source := none }

def smallBudget : DiscoveryBudget :=
  { maxCandidates := 64, maxReads := 16, maxBytes := 262144, maxCharacters := 131072, maxLines := 4096, deadline := 30 }

def pageRead : Read :=
  { source :=
      { identity := pageCandidate.identity, channel := .remote, format := "mixesdb_rest_page_json", displayName := none
        revision := none, request := some { kind := .fetch, terms := [], page := 1 } }
    budget := smallBudget
    world := { robotsSent := true, robotsPass := true, sent := true, answer := none } }

def pageUrl : Str := str "https://www.mixesdb.com/w/rest.php/v1/page/..%2FAC%2FDC_%40_Caf%C3%A9%3Fa%3Db%26c%252F"

theorem page_key_stays_on_route : pageUrl ∈ mixesdbRegistry.urls smallBudget [pageRead] (.load pageCandidate) ∧
    ∃ profile, findProfile mixesdbRegistry.profiles "mixesdb" = some profile ∧ (Invocation.load pageCandidate).MayAsk profile pageUrl := by
  have sent : pageUrl ∈ mixesdbRegistry.urls smallBudget [pageRead] (.load pageCandidate) := by decide +kernel
  exact ⟨sent, urls_stay_on_routes mixesdbRegistry (.load pageCandidate) smallBudget [pageRead] pageUrl sent⟩

end Phaze.Outbound
