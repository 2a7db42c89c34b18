import Phaze.Shared.Percent

set_option autoImplicit false

/-!
# The parts of a URI

The decomposition of RFC 3986 (appendix B), and what a server reads off an `https` one: the host, the decoded
segments of the path and the decoded pairs of the query.
-/

namespace Phaze.Uri

open Percent

structure Parts where
  scheme : Option Str
  authority : Option Str
  path : Str
  query : Option Str
  fragment : Option Str
deriving DecidableEq

def cut (stops text : Str) : Str × Str := text.span fun point => point ∉ stops

def cutScheme (text : Str) : Option Str × Str :=
  match cut (str ":/?#") text with
  | (scheme, .scalar ':' :: rest) => if scheme.isEmpty then (none, text) else (some scheme, rest)
  | _ => (none, text)

def cutAuthority : Str → Option Str × Str
  | .scalar '/' :: .scalar '/' :: rest => ((cut (str "/?#") rest).map some id)
  | text => (none, text)

def parse (text : Str) : Parts :=
  let (scheme, rest) := cutScheme text
  let (authority, rest) := cutAuthority rest
  let (path, rest) := cut (str "?#") rest
  let (query, rest) : Option Str × Str :=
    match rest with
    | .scalar '?' :: rest => (cut (str "#") rest).map some id
    | rest => (none, rest)
  { scheme, authority, path, query, fragment := rest.tail? }

/-! ## What the server reads -/

structure Target where
  host : Str
  segments : List Str
  pairs : List (Str × Str)
deriving DecidableEq

def readHost (authority : Str) : Option Str :=
  if authority.isEmpty ∨ .scalar '@' ∈ authority ∨ .scalar ':' ∈ authority then none else some authority

-- A dot segment would be resolved away.
def readSegment (segment : Str) : Option Str :=
  (unquote segment).bind fun text => if text = str "." ∨ text = str ".." then none else some text

def readPath : Str → Option (List Str)
  | .scalar '/' :: rest => (rest.splitOn (.scalar '/')).mapM readSegment
  | _ => none

def readPair (pair : Str) : Option (Str × Str) :=
  match pair.splitOn (.scalar '=') with
  | [name, value] => (unquote name).bind fun name => (unquote value).map fun value => (name, value)
  | _ => none

def readQuery : Option Str → Option (List (Str × Str))
  | none => some []
  | some query => (query.splitOn (.scalar '&')).mapM readPair

def target (text : Str) : Option Target :=
  let parts := parse text
  if parts.scheme = some (str "https") ∧ parts.fragment = none then
    (parts.authority.bind readHost).bind fun host => (readPath parts.path).bind fun segments =>
      (readQuery parts.query).map fun pairs => { host, segments, pairs }
  else none

/-! ## What is written -/

-- `urlencode(pairs, quote_via=quote, safe="")`
def quotePair (pair : Str × Str) : Option Str :=
  (quote pair.1).bind fun name => (quote pair.2).map fun value => name ++ .scalar '=' :: value

def urlencode (pairs : List (Str × Str)) : Option Str :=
  (pairs.mapM quotePair).map fun parts => (str "&").intercalate parts

theorem not_quoted_mem {text quoted : Str} (encoded : quote text = some quoted) {point : CodePoint}
    (reserved : point.quoted = false) : point ∉ quoted := by
  intro member
  have plain := quote_quoted encoded point member
  rw [reserved] at plain
  cases plain

theorem readPair_quotePair {pair : Str × Str} {quoted : Str} (encoded : quotePair pair = some quoted) :
    readPair quoted = some pair := by
  simp only [quotePair, Option.bind_eq_some_iff, Option.map_eq_some_iff] at encoded
  obtain ⟨name, quotedName, value, quotedValue, rfl⟩ := encoded
  have apart : (name ++ .scalar '=' :: value).splitOn (.scalar '=') = [name, value] := by
    rw [List.splitOn_append_cons_self_of_not_mem (not_quoted_mem quotedName (by decide)),
      List.splitOn_eq_singleton (not_quoted_mem quotedValue (by decide))]
  simp [readPair, apart, unquote_quote quotedName, unquote_quote quotedValue]

theorem quotePair_mem {pair : Str × Str} {quoted : Str} (encoded : quotePair pair = some quoted) :
    ∀ point ∈ quoted, point.quoted = true ∨ point = .scalar '=' := by
  simp only [quotePair, Option.bind_eq_some_iff, Option.map_eq_some_iff] at encoded
  obtain ⟨name, quotedName, value, quotedValue, rfl⟩ := encoded
  intro point member
  rcases List.mem_append.mp member with first | rest
  · exact .inl (quote_quoted quotedName point first)
  · rcases List.mem_cons.mp rest with rfl | second
    · exact .inr rfl
    · exact .inl (quote_quoted quotedValue point second)

theorem exists_of_mem {α β : Type} {relates : α → β → Prop} {items : List α} {results : List β}
    (each : List.Forall₂ relates items results) {result : β} (member : result ∈ results) :
    ∃ item ∈ items, relates item result := by
  induction each with
  | nil => cases member
  | @cons item first items results related rest ih =>
    rcases List.mem_cons.mp member with rfl | later
    · exact ⟨item, List.mem_cons_self, related⟩
    · obtain ⟨other, inside, found⟩ := ih later
      exact ⟨other, List.mem_cons_of_mem _ inside, found⟩

theorem mem_intercalate {α : Type} {separator : List α} {parts : List (List α)} {item : α}
    (member : item ∈ separator.intercalate parts) : (∃ part ∈ parts, item ∈ part) ∨ item ∈ separator := by
  induction parts with
  | nil => simp at member
  | cons part rest ih =>
    cases rest with
    | nil =>
      rw [List.intercalate_singleton] at member
      exact .inl ⟨part, List.mem_cons_self, member⟩
    | cons next rest =>
      rw [List.intercalate_cons_cons, List.append_assoc, List.mem_append, List.mem_append] at member
      rcases member with here | between | later
      · exact .inl ⟨part, List.mem_cons_self, here⟩
      · exact .inr between
      · refine (ih later).imp_left fun found => ?_
        obtain ⟨other, inside, there⟩ := found
        exact ⟨other, List.mem_cons_of_mem _ inside, there⟩

theorem urlencode_mem {pairs : List (Str × Str)} {quoted : Str} (encoded : urlencode pairs = some quoted) :
    ∀ point ∈ quoted, point.quoted = true ∨ point = .scalar '=' ∨ point = .scalar '&' := by
  obtain ⟨parts, each, rfl⟩ := Option.map_eq_some_iff.mp encoded
  have each := mapM_some.mp each
  intro point member
  rcases mem_intercalate member with ⟨part, inside, found⟩ | separator
  · obtain ⟨pair, -, quotedPair⟩ := exists_of_mem each inside
    exact (quotePair_mem quotedPair point found).imp_right .inl
  · exact .inr (.inr (List.mem_singleton.mp separator))

theorem readQuery_urlencode {pairs : List (Str × Str)} (some' : pairs ≠ []) {quoted : Str}
    (encoded : urlencode pairs = some quoted) : readQuery (some quoted) = some pairs := by
  obtain ⟨parts, each, rfl⟩ := Option.map_eq_some_iff.mp encoded
  have each := mapM_some.mp each
  have apart : ∀ part ∈ parts, CodePoint.scalar '&' ∉ part := by
    intro part member inside
    obtain ⟨pair, -, quotedPair⟩ := exists_of_mem each member
    rcases quotePair_mem quotedPair _ inside with plain | same
    · exact absurd plain (by decide)
    · exact absurd same (by decide)
  have nonempty : parts ≠ [] := by
    rintro rfl
    exact some' (List.forall₂_nil_right_iff.mp each)
  rw [readQuery, show str "&" = [.scalar '&'] from rfl, List.splitOn_intercalate _ apart nonempty, mapM_some]
  exact each.flip.imp fun pair quoted same => readPair_quotePair same

/-! ## A URL is read as it was written -/

theorem cut_stop {stops head rest : Str} {stop : CodePoint} (clear : ∀ point ∈ head, point ∉ stops)
    (stops' : stop ∈ stops) : cut stops (head ++ stop :: rest) = (head, stop :: rest) := by
  induction head with
  | nil => simp [cut, List.span_eq_takeWhile_dropWhile, stops']
  | cons point head ih =>
    have here := clear point List.mem_cons_self
    have later := ih fun point member => clear point (List.mem_cons_of_mem _ member)
    rw [cut, List.span_eq_takeWhile_dropWhile, Prod.mk.injEq] at later ⊢
    rw [List.cons_append, List.takeWhile_cons_of_pos (by simpa using here), List.dropWhile_cons_of_pos (by simpa using here)]
    exact ⟨by rw [later.1], later.2⟩

theorem cut_end {stops text : Str} (clear : ∀ point ∈ text, point ∉ stops) : cut stops text = (text, []) := by
  rw [cut, List.span_eq_takeWhile_dropWhile, List.takeWhile_eq_self_iff.mpr, List.dropWhile_eq_nil_iff.mpr]
  all_goals
    intro point member
    simpa using clear point member

theorem parse_https {host rest : Str} (query : Option Str) (host' : ∀ point ∈ host, point ∉ str "/?#")
    (path : ∀ point ∈ rest, point ∉ str "?#") (query' : ∀ text, query = some text → .scalar '#' ∉ text) :
    parse (str "https://" ++ host ++ .scalar '/' :: rest ++ query.elim [] (.scalar '?' :: ·)) =
      { scheme := some (str "https"), authority := some host, path := .scalar '/' :: rest, query, fragment := none } := by
  have scheme : cutScheme (str "https://" ++ host ++ .scalar '/' :: rest ++ query.elim [] (.scalar '?' :: ·)) =
      (some (str "https"), str "//" ++ host ++ .scalar '/' :: rest ++ query.elim [] (.scalar '?' :: ·)) := by
    have split : str "https://" ++ host ++ .scalar '/' :: rest ++ query.elim [] (.scalar '?' :: ·) = str "https" ++
        .scalar ':' :: (str "//" ++ host ++ .scalar '/' :: rest ++ query.elim [] (.scalar '?' :: ·)) := by
      simp [str]
    rw [cutScheme, split, cut_stop (by decide) (by decide)]
    rfl
  have authority : cutAuthority (str "//" ++ host ++ .scalar '/' :: rest ++ query.elim [] (.scalar '?' :: ·)) =
      (some host, .scalar '/' :: rest ++ query.elim [] (.scalar '?' :: ·)) := by
    have found : cut (str "/?#") (host ++ .scalar '/' :: (rest ++ query.elim [] (.scalar '?' :: ·))) =
        (host, .scalar '/' :: (rest ++ query.elim [] (.scalar '?' :: ·))) := cut_stop host' (by decide)
    have split : str "//" ++ host ++ .scalar '/' :: rest ++ query.elim [] (.scalar '?' :: ·) = .scalar '/' ::
        .scalar '/' :: (host ++ .scalar '/' :: (rest ++ query.elim [] (.scalar '?' :: ·))) := by
      simp [str]
    rw [split, cutAuthority, found]
    rfl
  have tail : cut (str "?#") (.scalar '/' :: rest ++ query.elim [] (.scalar '?' :: ·)) =
      (.scalar '/' :: rest, query.elim [] (.scalar '?' :: ·)) := by
    have clear : ∀ point ∈ .scalar '/' :: rest, point ∉ str "?#" := List.forall_mem_cons.mpr ⟨by decide, path⟩
    cases query with
    | none => simpa using cut_end clear
    | some text => exact cut_stop clear (by decide)
  rw [parse, scheme]
  simp only
  rw [authority]
  simp only
  rw [tail]
  simp only
  cases query with
  | none => rfl
  | some text =>
    have whole : cut (str "#") text = (text, []) := cut_end fun point member same =>
      query' text rfl (List.mem_singleton.mp same ▸ member)
    simp [whole]

/-- What is read off an `https` URL is the host, the segments and the pairs that it was written from. -/
theorem target_https {host rest : Str} (query : Option Str) {segments : List Str} {pairs : List (Str × Str)}
    (named : host ≠ []) (host' : ∀ point ∈ host, point ∉ str "/?#@:") (path : ∀ point ∈ rest, point ∉ str "?#")
    (query' : ∀ text, query = some text → .scalar '#' ∉ text)
    (segments' : (rest.splitOn (.scalar '/')).mapM readSegment = some segments)
    (pairs' : readQuery query = some pairs) :
    target (str "https://" ++ host ++ .scalar '/' :: rest ++ query.elim [] (.scalar '?' :: ·)) =
      some { host, segments, pairs } := by
  have parsed := parse_https query
    (fun point member => mt (List.mem_append_left (str "@:")) (host' point member)) path query'
  have read : readHost host = some host := by
    have user : .scalar '@' ∉ host := fun member => host' _ member (by decide)
    have port : .scalar ':' ∉ host := fun member => host' _ member (by decide)
    simp [readHost, named, user, port]
  rw [target, parsed]
  simp [read, readPath, segments', pairs']

end Phaze.Uri
