import Curation.Catalog.Tables
import Curation.Settings

/-! Which request goes where: the paths that are served, the methods for each, and what each one asks for. -/

namespace Curation.Http

/-- What a request asks for. -/
inductive Endpoint where
  | openApi
  | docs
  | docsReturn
  | redoc
  | health
  | ready
  | list
  | create
  | get (id : String)
  | edit (id : String)
  | setIcon (id : String)
  | clearIcon (id : String)
  | delete (id : String)
  | root
  deriving DecidableEq, Repr

/-! ### Patterns of paths -/

/-- What a name between braces stands for in a pattern. -/
inductive Wildcard where
  /-- Anything without slashes. -/
  | segment
  /-- Anything. -/
  | path
  | integer
  | decimal
  | uuid
  deriving DecidableEq, Repr

namespace Wildcard

/-- The words for wildcards. -/
def words : List (String × Wildcard) :=
  [("str", .segment), ("path", .path), ("int", .integer), ("float", .decimal), ("uuid", .uuid)]

/-- A character may stand in a name between braces, but digits not at its start. -/
def isNameChar (c : Char) : Bool := c.isAlphanum || c == '_'

def isName (cs : List Char) : Bool := !cs.isEmpty && cs.all isNameChar && !cs.head?.any Char.isDigit

/-- The name that is written between braces, and the word for what it stands for. -/
def read? (inner : List Char) : Option (String × String) :=
  let (name, word) := Text.cut ':' (String.ofList inner)
  if isName name.toList && isName (word.getD "str").toList then some (name, word.getD "str") else none

def isHex (c : Char) : Bool := c.isDigit || ('a' ≤ c && c ≤ 'f') || ('A' ≤ c && c ≤ 'F')

/-- How many characters at the start are groups of hexadecimal digits of the given sizes, between which a dash may
    stand. -/
def groupsLength? : List Nat → List Char → Option Nat
  | [], _ => some 0
  | size :: sizes, cs =>
    if (cs.take size).length = size && (cs.take size).all isHex then
      let rest := cs.drop size
      let dash := if !sizes.isEmpty && rest.head? == some '-' then 1 else 0
      (groupsLength? sizes (rest.drop dash)).map (size + dash + ·)
    else none

/-- The numbers from one down to another. -/
def downTo (high low : Nat) : List Nat := (List.range (high + 1 - low)).reverse.map (· + low)

/-- How many characters at the start a wildcard may stand for, the most first. -/
def lengths (w : Wildcard) (cs : List Char) : List Nat :=
  let digits (cs : List Char) := (cs.takeWhile Char.isDigit).length
  match w with
  | segment => downTo (cs.takeWhile (· != '/')).length 1
  | path => downTo (cs.takeWhile (· != '\n')).length 0
  | integer => downTo (digits cs) 1
  | decimal =>
    let whole := digits cs
    let fraction := match cs.drop whole with
      | '.' :: rest => (downTo (digits rest) 1).map (whole + 1 + ·)
      | _ => []
    (if whole = 0 then [] else fraction) ++ downTo whole 1
  | uuid => (groupsLength? [8, 4, 4, 4, 12] cs).toList

end Wildcard

/-- A piece of a pattern. -/
inductive Piece where
  | fixed (c : Char)
  | wild (w : Wildcard)
  /-- Stands for anything up to the next slash, which is the id of a collection. -/
  | id
  deriving DecidableEq, Repr

/-- A pattern of paths, the methods that it is served for, and what they ask for. -/
structure Route where
  methods : List String
  pattern : List Piece
  endpoint : String → Endpoint

/-- The name under which a pattern has the id of a collection. -/
def idName : String := "collection_id"

namespace Route

/-- What is between braces in a part of a path after an opening brace, and the rest of the part. -/
def opened? (part : List Char) : Option ((String × String) × List Char) :=
  let inner := part.takeWhile (· != '}')
  match part.drop inner.length with
  | _ :: rest => (Wildcard.read? inner).map (·, rest)
  | [] => none

/-- The pattern that a path writes. -/
def patternOf (path : String) : List Piece :=
  match Text.splitChars '{' path.toList with
  | [] => []
  | first :: parts =>
    first.map .fixed ++ parts.flatMap fun part =>
      match opened? part with
      | some ((name, word), rest) =>
        (if name = idName then .id else .wild ((Wildcard.words.lookup word).getD .segment)) :: rest.map .fixed
      | none => .fixed '{' :: part.map .fixed

/-- The names in the pattern that a path writes, and the words for what they stand for. -/
def namesIn (path : String) : List (String × String) :=
  ((Text.splitChars '{' path.toList).drop 1).filterMap fun part => (opened? part).map (·.1)

/-- Every name in a pattern stands for something, and no name stands there twice. -/
def check (path : String) : Except Failure Unit :=
  let names := namesIn path
  let repeated := sorted (distinct ((names.map (·.1)).filter fun n => 1 < (names.map (·.1)).count n))
  match names.find? fun (_, word) => (Wildcard.words.lookup word).isNone with
  | some (_, word) => .error (.assertion s!"Unknown path convertor '{word}'")
  | none => if repeated.isEmpty then .ok () else .error (.badValue (.repeatedName repeated path))

/-- The id that a path gives under a pattern, if it matches. A line feed at the end makes no difference. -/
def idOf? : List Piece → List Char → Option String
  | [], cs => if cs.isEmpty || cs == ['\n'] then some "" else none
  | .fixed c :: pattern, cs => if cs.head? == some c then idOf? pattern (cs.drop 1) else none
  | .wild w :: pattern, cs => (w.lengths cs).findSome? fun n => idOf? pattern (cs.drop n)
  | .id :: pattern, cs =>
    let id := cs.takeWhile (· != '/')
    if id.isEmpty then none else (idOf? pattern (cs.drop id.length)).map fun _ => String.ofList id

/-- What a path asks for, if it matches. -/
def endpoint? (r : Route) (path : String) : Option Endpoint := (idOf? r.pattern path.toList).map r.endpoint

end Route

/-! ### The routes of the application -/

/-- The pages that describe the interface, which only developers are shown. -/
def pageRoutes : List Route := [
  ("/openapi.json", Endpoint.openApi), ("/docs", .docs), ("/docs/oauth2-redirect", .docsReturn),
  ("/redoc", .redoc)].map fun (path, e) => ⟨["GET", "HEAD"], Route.patternOf path, fun _ => e⟩

/-- The paths that collections are served at, under a common start, with methods and what they ask for. -/
def collectionPaths : List (String × String × (String → Endpoint)) :=
  let one := "/collection/\x7b" ++ idName ++ "\x7d"
  [("GET", "/collections", fun _ => .list), ("POST", "/collection", fun _ => .create), ("GET", one, .get),
    ("PATCH", one, .edit), ("PATCH", one ++ "/icon", .setIcon), ("DELETE", one ++ "/icon", .clearIcon),
    ("DELETE", one, .delete)]

/-- The routes of an installation; of several that match, the first one counts. -/
def routes (s : Settings) : List Route :=
  let route (method path : String) (endpoint : String → Endpoint) : Route :=
    ⟨[method], Route.patternOf path, endpoint⟩
  (if s.environment == .development then pageRoutes else []) ++
    [route "GET" "/health" fun _ => .health, route "GET" "/ready" fun _ => .ready] ++
    (collectionPaths.map fun (method, path, endpoint) => route method (s.apiRoot ++ path) endpoint) ++
    [route "GET" s.apiRoot fun _ => .root]

/-- The start of the paths that collections are served at has the form that is needed: it starts with a slash unless
    it is empty, it does not end with one, and every pattern that it is part of is sound. -/
def checkRoot (root : String) : Except Failure Unit := do
  if root ≠ "" then
    if !root.startsWith "/" then .error (.assertion "A path prefix must start with '/'")
    if root.endsWith "/" then
      .error (.assertion "A path prefix must not end with '/', as the routes will start with '/'")
  collectionPaths.forM fun (_, path, _) => Route.check (root ++ path)

/-- Where a request goes. -/
inductive Destination where
  | endpoint (e : Endpoint)
  /-- The path is served for other methods only. -/
  | wrongMethod (allowed : List String)
  /-- Another path is served, which differs in the slashes at its end. -/
  | redirect (path : String)
  | nowhere
  deriving DecidableEq, Repr

/-- The path with or without slashes at its end, whichever it is not. -/
def otherPath (path : String) : String :=
  if path.endsWith "/" then Settings.withoutSlashes path else path ++ "/"

/-- Where a request goes: to the first route that matches path and method, else to the first one that matches
    the path. -/
def destination (routes : List Route) (method path : String) : Destination :=
  let matching := routes.filterMap fun r => (r.endpoint? path).map fun e => (r.methods, e)
  match matching.find? fun (methods, _) => methods.contains method with
  | some (_, e) => .endpoint e
  | none =>
    match matching with
    | (methods, _) :: _ => .wrongMethod methods
    | [] =>
      if path ≠ "/" && routes.any fun r => (r.endpoint? (otherPath path)).isSome then
        .redirect (otherPath path)
      else .nowhere

end Curation.Http
