import CleanArchitecture.AuthUseCases
import CleanArchitecture.Connection
import CleanArchitecture.Trie

/-!
# Routing

The request handler keeps one trie of callbacks for each method.  Its constructor
inserts the routes one after the other and a request is looked up segment by
segment; both cut paths with a cursor of their own.
-/

namespace CleanArchitecture

/-- `router_node`: the callback is a null pointer where no route ends. -/
abbrev RouterNode (κ : Type) : Type :=
  Trie Bytes κ

structure Router (κ : Type) where
  method : Bytes
  path : Bytes
  cb : Option κ
  deriving DecidableEq

structure RequestHandler (κ : Type) where
  basePath : Bytes
  map : Bytes → Option (RouterNode κ)

namespace RequestHandler

variable {κ : Type}

/-! ## The constructor -/

/-- The nodes of a path from the cursor on; the last one gets the callback. -/
def insertFrom (path : Bytes) (cb : Option κ) (startCursor : Nat) (ptr : RouterNode κ) :
    Except StdException (RouterNode κ) :=
  match found : find path '/'.toUInt8 startCursor with
  | some endCursor =>
      have := find_bounds found
      match substr path startCursor (endCursor - startCursor) with
      | .error e => .error e
      | .ok segment => (insertFrom path cb (endCursor + 1) (ptr.child segment)).map (ptr.setChild segment)
  | none =>
      match substrFrom path startCursor with
      | .error e => .error e
      | .ok segment => .ok (ptr.setChild segment ((ptr.child segment).setValue cb))
  termination_by path.length - startCursor

/-- One round of the constructor's loop. -/
def addRouter (map : Bytes → Option (RouterNode κ)) (rtr : Router κ) :
    Except StdException (Bytes → Option (RouterNode κ)) :=
  let ptr := (map rtr.method).getD .empty
  if rtr.path = ascii "/" then
    .ok (Function.update map rtr.method (some (ptr.setValue rtr.cb)))
  else
    (insertFrom rtr.path rtr.cb 1 ptr).map fun node => Function.update map rtr.method (some node)

def construct (routers : List (Router κ)) (basePath : Bytes) :
    Except StdException (RequestHandler κ) := do
  let map ← routers.foldlM addRouter fun _ => none
  return { basePath := basePath, map := map }

/-! ## Lookup -/

/-- The callback of the node that a path leads to from the cursor on. -/
def lookupFrom (path : Bytes) (startCursor : Nat) (node : RouterNode κ) :
    Except StdException (Option κ) :=
  match found : find path '/'.toUInt8 startCursor with
  | some endCursor =>
      have := find_bounds found
      match substr path startCursor (endCursor - startCursor) with
      | .error e => .error e
      | .ok segment =>
          match node.children segment with
          | none => .ok none
          | some next => lookupFrom path (endCursor + 1) next
  | none =>
      match substrFrom path startCursor with
      | .error e => .error e
      | .ok segment => .ok ((node.children segment).bind Trie.value)
  termination_by path.length - startCursor

/-- The uri up to its first question mark. -/
def requestPath (uri : Bytes) : Except StdException Bytes :=
  match find uri '?'.toUInt8 0 with
  | some n => substr uri 0 n
  | none => substrFrom uri 0

/-- The callback that a request is routed to. -/
def route (rh : RequestHandler κ) (req : Request) : Except StdException (Option κ) := do
  let path ← requestPath req.uri
  if ¬ rh.basePath <+: path then return none
  else
    match rh.map req.method with
    | none => return none
    | some node =>
        if path.length = rh.basePath.length then return node.value
        else lookupFrom path (rh.basePath.length + 1) node

/-- The callbacks that are called, in order, and what becomes of the request and
the response. -/
def handleRequest (callbacks : κ → Handler) (rh : RequestHandler κ) (req : Request)
    (res : Response) : Except StdException (List κ × Request × Response) := do
  match ← rh.route req with
  | none => return ([], req, { res with status := statusNotFound })
  | some cb => return ([cb], callbacks cb req res)

/-! ## Segments -/

/-- The segments of the path after its first byte. -/
def segments (path : Bytes) : List Bytes :=
  if path = ascii "/" then [] else (path.drop 1).splitOn '/'.toUInt8

theorem splitOn_of_find_none {path : Bytes} {c : UInt8} {start : Nat}
    (absent : find path c start = none) : (path.drop start).splitOn c = [path.drop start] :=
  List.splitOn_eq_singleton (find_eq_none absent)

theorem splitOn_of_find_some {path : Bytes} {c : UInt8} {start n : Nat}
    (found : find path c start = some n) :
    (path.drop start).splitOn c =
      (path.drop start).take (n - start) :: (path.drop (n + 1)).splitOn c := by
  obtain ⟨parts, clean⟩ := find_eq_some found
  conv_lhs => rw [parts]
  exact List.splitOn_append_cons_self_of_not_mem clean _

/-- Paths with one first byte are told apart by their segments. -/
theorem segments_inj {path other : Bytes} (slash : path.head? = some '/'.toUInt8)
    (otherSlash : other.head? = some '/'.toUInt8) (same : segments path = segments other) :
    path = other := by
  obtain ⟨rest, rfl⟩ := List.head?_eq_some_iff.mp slash
  obtain ⟨rest', rfl⟩ := List.head?_eq_some_iff.mp otherSlash
  unfold segments at same
  split at same
  · rename_i root
    split at same
    · rename_i otherRoot
      rw [root, otherRoot]
    · exact absurd same.symm (List.splitOn_ne_nil _ _)
  · split at same
    · exact absurd same (List.splitOn_ne_nil _ _)
    · rw [List.drop_one, List.tail_cons, List.drop_one, List.tail_cons] at same
      have texts := congrArg ['/'.toUInt8].intercalate same
      rw [List.intercalate_splitOn, List.intercalate_splitOn] at texts
      rw [texts]

/-- Only the root has an empty rest, and it has no segments. -/
theorem segments_ne_singleton_nil {path : Bytes} (slash : path.head? = some '/'.toUInt8) :
    segments path ≠ [[]] := by
  obtain ⟨rest, rfl⟩ := List.head?_eq_some_iff.mp slash
  unfold segments
  split
  · simp
  · rename_i other
    rw [List.drop_one, List.tail_cons]
    intro single
    have empty : ['/'.toUInt8].intercalate (rest.splitOn '/'.toUInt8) = rest :=
      List.intercalate_splitOn _
    rw [single] at empty
    subst empty
    exact other rfl

/-! ## Both cursors cut a path into its segments -/

theorem insertFrom_eq (path : Bytes) (cb : Option κ) (start : Nat) (inside : start ≤ path.length)
    (ptr : RouterNode κ) :
    insertFrom path cb start ptr = .ok (ptr.insert ((path.drop start).splitOn '/'.toUInt8) cb) := by
  fun_induction insertFrom path cb start ptr with
  | case1 start ptr n found bounds e cut =>
      rw [substr_of_le inside] at cut
      cases cut
  | case2 start ptr n found bounds segment cut ih =>
      rw [substr_of_le inside] at cut
      cases cut
      rw [ih (by omega), splitOn_of_find_some found]
      rfl
  | case3 start ptr absent e cut =>
      rw [substrFrom_of_le inside] at cut
      cases cut
  | case4 start ptr absent segment cut =>
      rw [substrFrom_of_le inside] at cut
      cases cut
      rw [splitOn_of_find_none absent]
      rfl

theorem lookupFrom_eq (path : Bytes) (start : Nat) (inside : start ≤ path.length)
    (node : RouterNode κ) :
    lookupFrom path start node = .ok (node.find? ((path.drop start).splitOn '/'.toUInt8)) := by
  fun_induction lookupFrom path start node with
  | case1 start node n found bounds e cut =>
      rw [substr_of_le inside] at cut
      cases cut
  | case2 start node n found bounds segment cut missing =>
      rw [substr_of_le inside] at cut
      cases cut
      rw [splitOn_of_find_some found, Trie.find?, missing]
      rfl
  | case3 start node n found bounds segment cut next child ih =>
      rw [substr_of_le inside] at cut
      cases cut
      rw [ih (by omega), splitOn_of_find_some found, Trie.find?, child]
      rfl
  | case4 start node absent e cut =>
      rw [substrFrom_of_le inside] at cut
      cases cut
  | case5 start node absent segment cut =>
      rw [substrFrom_of_le inside] at cut
      cases cut
      rw [splitOn_of_find_none absent, Trie.find?]
      rfl

/-! ## The map of tries -/

/-- The callback that a method's trie holds under a list of segments. -/
def held (map : Bytes → Option (RouterNode κ)) (method : Bytes) (keys : List Bytes) : Option κ :=
  ((map method).getD .empty).find? keys

/-- A route changes what is held under its own method and segments. -/
theorem addRouter_held (map : Bytes → Option (RouterNode κ)) {rtr : Router κ}
    (nonempty : rtr.path ≠ []) :
    ∃ map', addRouter map rtr = .ok map' ∧ ∀ method keys, held map' method keys =
      if method = rtr.method ∧ keys = segments rtr.path then rtr.cb else held map method keys := by
  have inserted : addRouter map rtr = .ok (Function.update map rtr.method
      (some (((map rtr.method).getD .empty).insert (segments rtr.path) rtr.cb))) := by
    unfold addRouter segments
    split
    · rfl
    · have inside : 1 ≤ rtr.path.length := List.length_pos_iff.mpr nonempty
      simp only [insertFrom_eq _ _ _ inside]
      rfl
  refine ⟨_, inserted, fun method keys => ?_⟩
  by_cases same : method = rtr.method
  · subst same
    rw [held, Function.update_self, Option.getD_some, Trie.find?_insert]
    simp [held]
  · rw [held, Function.update_of_ne same, if_neg (by simp [same])]
    rfl

/-- The last listed route with a method and a path. -/
def lastRouter (routers : List (Router κ)) (method path : Bytes) : Option (Router κ) :=
  routers.reverse.find? fun rtr => rtr.method = method ∧ rtr.path = path

theorem lastRouter_concat (routers : List (Router κ)) (rtr : Router κ) (method path : Bytes) :
    lastRouter (routers ++ [rtr]) method path =
      if rtr.method = method ∧ rtr.path = path then some rtr else lastRouter routers method path := by
  rw [lastRouter, List.reverse_concat, List.find?_cons]
  split <;> simp_all [lastRouter]

/-- A map holds the callbacks of the last routes: under the segments of a path that of
the last route for the path, and none under an empty rest. -/
structure HoldsLast (routers : List (Router κ)) (map : Bytes → Option (RouterNode κ)) : Prop where
  path : ∀ method path, path.head? = some '/'.toUInt8 →
    held map method (segments path) = (lastRouter routers method path).bind Router.cb
  emptyRest : ∀ method, held map method [[]] = none

/-- The constructor's loop ends, and the map holds the last routes. -/
theorem foldlM_addRouter (routers : List (Router κ))
    (slashes : ∀ rtr ∈ routers, rtr.path.head? = some '/'.toUInt8) :
    ∃ map, routers.foldlM addRouter (fun _ => none) = .ok map ∧ HoldsLast routers map := by
  induction routers using List.reverseRecOn with
  | nil =>
      refine ⟨_, rfl, ?_, ?_⟩
      · intro method path _
        exact Trie.find?_empty _
      · intro method
        exact Trie.find?_empty _
  | append_singleton routers rtr ih =>
      obtain ⟨map, folded, holds⟩ := ih fun other member =>
        slashes other (List.mem_append_left _ member)
      have slash := slashes rtr (by simp)
      have nonempty : rtr.path ≠ [] := by
        intro empty
        rw [empty] at slash
        cases slash
      obtain ⟨map', added, after⟩ := addRouter_held map nonempty
      refine ⟨map', ?_, ?_, ?_⟩
      · rw [List.foldlM_append, folded]
        change List.foldlM addRouter map [rtr] = .ok map'
        rw [List.foldlM_cons, added]
        rfl
      · intro method path pathSlash
        rw [after, lastRouter_concat, holds.path method path pathSlash]
        by_cases same : rtr.method = method ∧ rtr.path = path
        · rw [if_pos same, if_pos ⟨same.1.symm, by rw [same.2]⟩]
          rfl
        · rw [if_neg same, if_neg]
          rintro ⟨rfl, keys⟩
          exact same ⟨rfl, segments_inj slash pathSlash keys.symm⟩
      · intro method
        rw [after, if_neg, holds.emptyRest]
        rintro ⟨-, keys⟩
        exact segments_ne_singleton_nil slash keys.symm

/-! ## Requests -/

/-- The part of a uri before its first question mark. -/
def pathOf (uri : Bytes) : Bytes :=
  uri.takeWhile (· != '?'.toUInt8)

theorem requestPath_eq (uri : Bytes) : requestPath uri = .ok (pathOf uri) := by
  unfold requestPath pathOf
  split
  · rename_i n found
    obtain ⟨parts, clean⟩ := find_eq_some found
    rw [Nat.sub_zero, List.drop_zero] at parts clean
    rw [substr_of_le (Nat.zero_le _), List.drop_zero]
    conv_rhs => rw [parts, takeWhile_ne_append clean]
  · rename_i absent
    have clean := find_eq_none absent
    rw [List.drop_zero] at clean
    rw [substrFrom_of_le (Nat.zero_le _), List.drop_zero, takeWhile_ne_eq_self clean]

/-- A request is routed to the callback that its method's trie holds for what follows
the base path. -/
theorem route_eq (rh : RequestHandler κ) (req : Request) :
    rh.route req = .ok
      (if rh.basePath <+: pathOf req.uri then
        held rh.map req.method
          (if (pathOf req.uri).length = rh.basePath.length then []
          else ((pathOf req.uri).drop (rh.basePath.length + 1)).splitOn '/'.toUInt8)
      else none) := by
  have parsed : rh.route req = (do
      if ¬ rh.basePath <+: pathOf req.uri then return none
      else
        match rh.map req.method with
        | none => return none
        | some node =>
            if (pathOf req.uri).length = rh.basePath.length then return node.value
            else lookupFrom (pathOf req.uri) (rh.basePath.length + 1) node) := by
    rw [route, requestPath_eq]
    rfl
  rw [parsed]
  by_cases inside : rh.basePath <+: pathOf req.uri
  · rw [if_neg (not_not.mpr inside), if_pos inside, held]
    cases rh.map req.method with
    | none => simp [pure, Except.pure]
    | some node =>
        simp only [Option.getD_some]
        split
        · rfl
        · rename_i longer
          have shorter := inside.length_le
          rw [lookupFrom_eq _ _ (by omega)]
  · rw [if_pos inside, if_neg inside]
    rfl

/-- The callback of a route is the only one that is called. -/
def Calls (callbacks : κ → Handler) (rh : RequestHandler κ) (req : Request) (res : Response)
    (rtr : Router κ) : Prop :=
  ∃ cb, rtr.cb = some cb ∧ rh.handleRequest callbacks req res = .ok ([cb], callbacks cb req res)

/-- No callback is called, and of the response only the status changes. -/
def NotFound (callbacks : κ → Handler) (rh : RequestHandler κ) (req : Request) (res : Response) :
    Prop :=
  rh.handleRequest callbacks req res = .ok ([], req, { res with status := statusNotFound })

/-- A request for a path below the base path: the callback of the last route listed
with its method and that path is called, or it is not found. -/
def Dispatches (routers : List (Router κ)) (callbacks : κ → Handler) (rh : RequestHandler κ)
    (req : Request) (res : Response) (path : Bytes) : Prop :=
  match lastRouter routers req.method path with
  | some rtr => Calls callbacks rh req res rtr
  | none => NotFound callbacks rh req res

theorem dispatches_of_route {routers : List (Router κ)} (callable : ∀ rtr ∈ routers, rtr.cb ≠ none)
    (callbacks : κ → Handler) {rh : RequestHandler κ} {req : Request} (res : Response)
    {path : Bytes}
    (routed : rh.route req = .ok ((lastRouter routers req.method path).bind Router.cb)) :
    Dispatches routers callbacks rh req res path := by
  unfold Dispatches
  cases last : lastRouter routers req.method path with
  | none =>
      rw [last] at routed
      simp only [NotFound, handleRequest, routed]
      rfl
  | some rtr =>
      have listed : rtr ∈ routers := List.mem_reverse.mp (List.mem_of_find?_eq_some last)
      obtain ⟨cb, here⟩ := Option.ne_none_iff_exists'.mp (callable rtr listed)
      rw [last, Option.bind_some, here] at routed
      refine ⟨cb, here, ?_⟩
      simp only [handleRequest, routed]
      rfl

theorem notFound_of_route (callbacks : κ → Handler) {rh : RequestHandler κ} {req : Request}
    (res : Response) (routed : rh.route req = .ok none) : NotFound callbacks rh req res := by
  simp only [NotFound, handleRequest, routed]
  rfl

/-- The routing trie equals the list of routes.  The constructor succeeds, every
lookup ends without an exception, and a request is dispatched by the list. -/
theorem dispatches_by_routers {routers : List (Router κ)}
    (slashes : ∀ rtr ∈ routers, rtr.path.head? = some '/'.toUInt8)
    (callable : ∀ rtr ∈ routers, rtr.cb ≠ none) (basePath : Bytes) (callbacks : κ → Handler) :
    ∃ rh, construct routers basePath = .ok rh ∧ ∀ req res,
      (pathOf req.uri = basePath → Dispatches routers callbacks rh req res (ascii "/")) ∧
      (∀ rest, rest ≠ [] → pathOf req.uri = basePath ++ ascii "/" ++ rest →
        Dispatches routers callbacks rh req res (ascii "/" ++ rest)) ∧
      (pathOf req.uri = basePath ++ ascii "/" → NotFound callbacks rh req res) ∧
      (¬ basePath <+: pathOf req.uri → NotFound callbacks rh req res) ∧
      ∃ outcome, rh.handleRequest callbacks req res = .ok outcome := by
  obtain ⟨map, folded, holds⟩ := foldlM_addRouter routers slashes
  refine ⟨{ basePath := basePath, map := map }, by rw [construct, folded]; rfl, ?_⟩
  intro req res
  have routed := route_eq { basePath := basePath, map := map } req
  simp only at routed
  refine ⟨fun root => ?_, fun rest nonempty below => ?_, fun bare => ?_, fun outside => ?_, ?_⟩
  · rw [root, if_pos List.prefix_rfl, if_pos rfl] at routed
    exact dispatches_of_route callable callbacks res
      (routed.trans (congrArg _ (holds.path req.method (ascii "/") rfl)))
  · rw [below, List.append_assoc, if_pos (List.prefix_append _ _), if_neg (by simp [ascii]),
      ← List.drop_drop, List.drop_left] at routed
    have cut : segments (ascii "/" ++ rest) = rest.splitOn '/'.toUInt8 := by
      rw [segments, if_neg]
      · rfl
      · intro alone
        exact nonempty (List.append_right_eq_self.mp alone)
    refine dispatches_of_route callable callbacks res (routed.trans (congrArg _ ?_))
    rw [← holds.path req.method (ascii "/" ++ rest) rfl, cut]
    rfl
  · rw [bare, if_pos (List.prefix_append _ _), if_neg (by simp [ascii]), List.drop_of_length_le
      (by simp [ascii])] at routed
    exact notFound_of_route callbacks res (routed.trans (congrArg _ (holds.emptyRest _)))
  · rw [if_neg outside] at routed
    exact notFound_of_route callbacks res routed
  · obtain ⟨found, ended⟩ : ∃ found, route { basePath := basePath, map := map } req = .ok found :=
      ⟨_, routed⟩
    rw [handleRequest, ended]
    cases found <;> exact ⟨_, rfl⟩

end RequestHandler

/-! ## The routes of the server -/

/-- `api::Auth`. -/
def Auth.getRouters : List (Router Endpoint) :=
  [{ method := ascii "GET", path := ascii "/user", cb := some .user },
   { method := ascii "POST", path := ascii "/auth/login", cb := some .login },
   { method := ascii "POST", path := ascii "/auth/logout", cb := some .logout },
   { method := ascii "POST", path := ascii "/auth/register", cb := some .register }]

/-- A login with a query after its path. -/
theorem dispatches_by_routers_login : ∃ rh,
    RequestHandler.construct Auth.getRouters (ascii "/api") = .ok rh ∧
      rh.handleRequest (fun _ => Prod.mk)
          { method := ascii "POST", uri := ascii "/api/auth/login?next=1" } {} =
        .ok ([.login], { method := ascii "POST", uri := ascii "/api/auth/login?next=1" }, {}) := by
  have slashes : ∀ rtr ∈ Auth.getRouters, rtr.path.head? = some '/'.toUInt8 := by
    decide
  obtain ⟨rh, constructed, dispatches⟩ := RequestHandler.dispatches_by_routers slashes
    (by decide) (ascii "/api") fun _ => Prod.mk
  refine ⟨rh, constructed, ?_⟩
  obtain ⟨-, below, -⟩ := dispatches
    { method := ascii "POST", uri := ascii "/api/auth/login?next=1" } {}
  have dispatched := below (ascii "auth/login") (by decide) (by decide)
  have last : RequestHandler.lastRouter Auth.getRouters (ascii "POST")
      (ascii "/" ++ ascii "auth/login") =
        some { method := ascii "POST", path := ascii "/auth/login", cb := some .login } := by
    decide
  rw [RequestHandler.Dispatches, last] at dispatched
  obtain ⟨cb, here, answered⟩ := dispatched
  cases here
  exact answered

end CleanArchitecture
