import CleanArchitecture.RequestHandler

/-!
# Base paths

A request is looked up one byte after the base path, whatever this byte is.  So a
path that only begins like the base path may be routed, and no route but the root is
found under a base path that ends in a slash.
-/

namespace CleanArchitecture

namespace RequestHandler

variable {κ : Type}

/-! ## Requests beside the base path -/

/-- The last listed route with a method and segments. -/
def lastSegmented (routers : List (Router κ)) (method : Bytes) (keys : List Bytes) :
    Option (Router κ) :=
  routers.reverse.find? fun rtr => rtr.method = method ∧ segments rtr.path = keys

theorem lastSegmented_concat (routers : List (Router κ)) (rtr : Router κ) (method : Bytes)
    (keys : List Bytes) :
    lastSegmented (routers ++ [rtr]) method keys =
      if rtr.method = method ∧ segments rtr.path = keys then some rtr
      else lastSegmented routers method keys := by
  rw [lastSegmented, List.reverse_concat, List.find?_cons]
  split <;> simp_all [lastSegmented]

/-- An empty path is cut after its end. -/
theorem nonempty_of_addRouter {map map' : Bytes → Option (RouterNode κ)} {rtr : Router κ}
    (added : addRouter map rtr = .ok map') : rtr.path ≠ [] := by
  intro empty
  have missing : find ([] : Bytes) '/'.toUInt8 1 = none := rfl
  have thrown : insertFrom [] rtr.cb 1 ((map rtr.method).getD .empty) = .error .outOfRange := by
    rw [insertFrom]
    split
    · rename_i n found
      cases found
    · rfl
  rw [addRouter, empty, if_neg (by decide), thrown] at added
  cases added

theorem addRouter_of_foldlM {routers : List (Router κ)} {rtr : Router κ}
    {start map : Bytes → Option (RouterNode κ)}
    (folded : (routers ++ [rtr]).foldlM addRouter start = .ok map) :
    ∃ before, routers.foldlM addRouter start = .ok before ∧ addRouter before rtr = .ok map := by
  rw [List.foldlM_append] at folded
  cases first : routers.foldlM addRouter start with
  | error e =>
      rw [first] at folded
      cases folded
  | ok before =>
      rw [first] at folded
      change List.foldlM addRouter before [rtr] = .ok map at folded
      rw [List.foldlM_cons] at folded
      cases added : addRouter before rtr with
      | error e =>
          rw [added] at folded
          cases folded
      | ok after =>
          rw [added] at folded
          cases folded
          exact ⟨before, rfl, added⟩

/-- What the tries of a handler hold, for routes of any form. -/
theorem held_of_foldlM {routers : List (Router κ)} {map : Bytes → Option (RouterNode κ)}
    (folded : routers.foldlM addRouter (fun _ => none) = .ok map) (method : Bytes)
    (keys : List Bytes) :
    held map method keys = (lastSegmented routers method keys).bind Router.cb := by
  induction routers using List.reverseRecOn generalizing map with
  | nil =>
      cases folded
      exact Trie.find?_empty keys
  | append_singleton routers rtr ih =>
      obtain ⟨before, earlier, last⟩ := addRouter_of_foldlM folded
      obtain ⟨map', added, after⟩ := addRouter_held before (nonempty_of_addRouter last)
      rw [last] at added
      cases added
      rw [after, lastSegmented_concat, ih earlier]
      by_cases same : rtr.method = method ∧ segments rtr.path = keys
      · rw [if_pos same, if_pos ⟨same.1.symm, same.2.symm⟩]
        rfl
      · rw [if_neg same, if_neg]
        rintro ⟨rfl, rfl⟩
        exact same ⟨rfl, rfl⟩

theorem construct_ok {routers : List (Router κ)} {basePath : Bytes} {rh : RequestHandler κ}
    (constructed : construct routers basePath = .ok rh) :
    rh.basePath = basePath ∧ routers.foldlM addRouter (fun _ => none) = .ok rh.map := by
  unfold construct at constructed
  cases folded : routers.foldlM addRouter (fun _ => none) with
  | error e =>
      rw [folded] at constructed
      cases constructed
  | ok map =>
      rw [folded] at constructed
      cases constructed
      exact ⟨rfl, rfl⟩

/-- A request for which a callback is called. -/
def CallsSome (callbacks : κ → Handler) (rh : RequestHandler κ) (req : Request) (res : Response) :
    Prop :=
  ∃ cb answer, rh.handleRequest callbacks req res = .ok ([cb], answer)

theorem callsSome_iff {callbacks : κ → Handler} {rh : RequestHandler κ} {req : Request}
    {res : Response} {found : Option κ} (routed : rh.route req = .ok found) :
    CallsSome callbacks rh req res ↔ found ≠ none := by
  unfold CallsSome
  simp only [handleRequest, routed]
  cases found with
  | none => simp [bind, Except.bind, pure, Except.pure]
  | some cb => simp [bind, Except.bind, pure, Except.pure]

/-- A callback is called only for the base path and paths below it, if and only if no route
with a callback has the segments that stand after the base path and one other byte. -/
theorem routed_below_base_iff {routers : List (Router κ)} {basePath : Bytes}
    {rh : RequestHandler κ} (constructed : construct routers basePath = .ok rh)
    (callbacks : κ → Handler) (req : Request) (res : Response) :
    (CallsSome callbacks rh req res →
      pathOf req.uri = basePath ∨ basePath ++ ascii "/" <+: pathOf req.uri) ↔
    ∀ c rest, pathOf req.uri = basePath ++ c :: rest → c ≠ '/'.toUInt8 →
      ∀ rtr, lastSegmented routers req.method (rest.splitOn '/'.toUInt8) = some rtr →
        rtr.cb = none := by
  obtain ⟨base, folded⟩ := construct_ok constructed
  have routed := route_eq rh req
  rw [base] at routed
  rw [callsSome_iff routed]
  constructor
  · intro below c rest path other rtr last
    rw [path, if_pos (List.prefix_append _ _), if_neg (by simp), ← List.drop_drop, List.drop_left,
      List.drop_one, List.tail_cons, held_of_foldlM folded, last, Option.bind_some] at below
    by_contra callable
    rcases below callable with same | ⟨later, extended⟩
    · simp at same
    · rw [List.append_assoc, List.append_cancel_left_eq] at extended
      exact other (List.cons.inj extended).1.symm
  · intro beside called
    by_cases inside : basePath <+: pathOf req.uri
    · obtain ⟨rest, path⟩ := inside
      cases rest with
      | nil => exact .inl (by rw [← path, List.append_nil])
      | cons c rest =>
          by_cases slash : c = '/'.toUInt8
          · subst slash
            exact .inr ⟨rest, by rw [← path, List.append_assoc]; rfl⟩
          · rw [← path, if_pos (List.prefix_append _ _), if_neg (by simp), ← List.drop_drop,
              List.drop_left, List.drop_one, List.tail_cons, held_of_foldlM folded] at called
            cases last : lastSegmented routers req.method (rest.splitOn '/'.toUInt8) with
            | none =>
                rw [last] at called
                exact absurd rfl called
            | some rtr =>
                rw [last] at called
                exact absurd (beside c rest path.symm slash rtr last) called
    · rw [if_neg inside] at called
      exact absurd rfl called

theorem construct_auth (basePath : Bytes) :
    ∃ rh, construct Auth.getRouters basePath = .ok rh ∧ HoldsLast Auth.getRouters rh.map := by
  obtain ⟨map, folded, holds⟩ := foldlM_addRouter Auth.getRouters (by decide)
  exact ⟨{ basePath := basePath, map := map }, by rw [construct, folded]; rfl, holds⟩

/-- A request for the user calls a callback below the base path. -/
theorem user_routed_below_base : ∃ rh, construct Auth.getRouters (ascii "/api") = .ok rh ∧
    (CallsSome (fun _ => Prod.mk) rh
        { method := ascii "GET", uri := ascii "/api/user" } {} →
      pathOf (ascii "/api/user") = ascii "/api" ∨
        ascii "/api" ++ ascii "/" <+: pathOf (ascii "/api/user")) := by
  obtain ⟨rh, constructed, -⟩ := construct_auth (ascii "/api")
  refine ⟨rh, constructed, (routed_below_base_iff constructed (fun _ => Prod.mk)
    { method := ascii "GET", uri := ascii "/api/user" } {}).mpr ?_⟩
  intro c rest path other
  have here : pathOf (ascii "/api/user") = ascii "/api" ++ '/'.toUInt8 :: ascii "user" := by
    decide
  rw [here, List.append_cancel_left_eq] at path
  exact absurd (List.cons.inj path).1.symm other

/-- `/apiXuser` is routed to the user like `/api/user`. -/
theorem routed_beside_base : ∃ rh, construct Auth.getRouters (ascii "/api") = .ok rh ∧
    CallsSome (fun _ => Prod.mk) rh
      { method := ascii "GET", uri := ascii "/apiXuser" } {} ∧
    ¬ (pathOf (ascii "/apiXuser") = ascii "/api" ∨
      ascii "/api" ++ ascii "/" <+: pathOf (ascii "/apiXuser")) := by
  obtain ⟨rh, constructed, -⟩ := construct_auth (ascii "/api")
  obtain ⟨base, folded⟩ := construct_ok constructed
  refine ⟨rh, constructed, ?_, by decide⟩
  have routed := route_eq rh { method := ascii "GET", uri := ascii "/apiXuser" }
  rw [base, held_of_foldlM folded] at routed
  rw [callsSome_iff routed]
  decide

/-! ## Routes under a base path -/

/-- A base path and the path of a route, joined by a single slash. -/
def joined (basePath path : Bytes) : Bytes :=
  if path = ascii "/" then basePath
  else if basePath.getLast? = some '/'.toUInt8 then basePath ++ path.drop 1
  else basePath ++ path

/-- Whatever other routes are listed beside it and whatever query follows, a request for
a route calls the callback of the last one with its method and path. -/
def Reachable (basePath method path : Bytes) : Prop :=
  ∀ {κ : Type} (routers : List (Router κ)) (callbacks : κ → Handler) (rh : RequestHandler κ)
    (req : Request) (res : Response) (query : Bytes),
    (∀ rtr ∈ routers, rtr.path.head? = some '/'.toUInt8 ∧ rtr.cb ≠ none) →
    (∃ rtr ∈ routers, rtr.method = method ∧ rtr.path = path) →
    construct routers basePath = .ok rh → req.method = method →
    (query = [] ∨ query.head? = some '?'.toUInt8) → req.uri = joined basePath path ++ query →
    ∃ rtr, lastRouter routers method path = some rtr ∧ Calls callbacks rh req res rtr

theorem pathOf_append_query {path query : Bytes} (clean : '?'.toUInt8 ∉ path)
    (starts : query = [] ∨ query.head? = some '?'.toUInt8) : pathOf (path ++ query) = path := by
  rcases starts with rfl | mark
  · rw [List.append_nil]
    exact takeWhile_ne_eq_self clean
  · obtain ⟨rest, rfl⟩ := List.head?_eq_some_iff.mp mark
    exact takeWhile_ne_append clean rest

theorem lastRouter_of_listed {routers : List (Router κ)} {method path : Bytes}
    (listed : ∃ rtr ∈ routers, rtr.method = method ∧ rtr.path = path) :
    ∃ rtr ∈ routers, lastRouter routers method path = some rtr := by
  obtain ⟨rtr, member, same⟩ := listed
  have found : (lastRouter routers method path).isSome := by
    rw [lastRouter, List.find?_isSome]
    exact ⟨rtr, List.mem_reverse.mpr member, decide_eq_true same⟩
  obtain ⟨last, last_eq⟩ := Option.isSome_iff_exists.mp found
  exact ⟨last, List.mem_reverse.mp (List.mem_of_find?_eq_some last_eq), last_eq⟩

/-- A route is found where the base path and its path lead. -/
theorem route_joined {routers : List (Router κ)} {basePath path : Bytes} {rh : RequestHandler κ}
    {req : Request} (base : rh.basePath = basePath) (holds : HoldsLast routers rh.map)
    (slash : path.head? = some '/'.toUInt8)
    (ends : path = ascii "/" ∨ basePath.getLast? ≠ some '/'.toUInt8)
    (uri : pathOf req.uri = joined basePath path) :
    rh.route req = .ok ((lastRouter routers req.method path).bind Router.cb) := by
  have routed := route_eq rh req
  rw [base, uri] at routed
  rw [routed, ← holds.path req.method path slash]
  by_cases root : path = ascii "/"
  · subst root
    rw [joined, if_pos rfl, if_pos List.prefix_rfl, if_pos rfl, segments, if_pos rfl]
  · obtain ⟨rest, rfl⟩ := List.head?_eq_some_iff.mp slash
    rw [joined, if_neg root, if_neg (ends.resolve_left root), if_pos (List.prefix_append _ _),
      if_neg (by simp), ← List.drop_drop, List.drop_left, segments, if_neg root]

theorem pathOf_begins_uri (uri : Bytes) : pathOf uri <+: uri :=
  List.takeWhile_prefix _

theorem not_mem_pathOf (uri : Bytes) : '?'.toUInt8 ∉ pathOf uri := by
  intro mark
  simpa using List.mem_takeWhile_imp mark

theorem route_of_called {callbacks : κ → Handler} {rh : RequestHandler κ} {req : Request}
    {res : Response} {cb : κ} {answer : Request × Response}
    (called : rh.handleRequest callbacks req res = .ok ([cb], answer)) :
    rh.route req = .ok (some cb) := by
  unfold handleRequest at called
  cases routed : rh.route req with
  | error e =>
      rw [routed] at called
      cases called
  | ok found =>
      rw [routed] at called
      cases found with
      | none => cases called
      | some other =>
          cases called
          rfl

/-- A handler with one route finds nothing but that route. -/
theorem path_of_singleton {basePath method path : Bytes} {map : Bytes → Option (RouterNode Unit)}
    (holds : HoldsLast [{ method := method, path := path, cb := some () }] map) {req : Request}
    (found : RequestHandler.route { basePath := basePath, map := map } req = .ok (some ())) :
    pathOf req.uri = basePath ∧ path = ascii "/" ∨
      ∃ c rest, pathOf req.uri = basePath ++ c :: rest ∧ path = '/'.toUInt8 :: rest ∧
        rest ≠ [] := by
  have routed := route_eq { basePath := basePath, map := map } req
  rw [found, Except.ok.injEq] at routed
  simp only at routed
  have only : ∀ other,
      (lastRouter [({ method := method, path := path, cb := some () } : Router Unit)]
        req.method other).bind Router.cb = some () → path = other := by
    intro other called
    obtain ⟨rtr, last, -⟩ := Option.bind_eq_some_iff.mp called
    have listed := List.mem_of_find?_eq_some last
    have same := List.find?_some last
    rw [List.reverse_singleton, List.mem_singleton] at listed
    rw [decide_eq_true_eq, listed] at same
    exact same.2
  by_cases inside : basePath <+: pathOf req.uri
  · obtain ⟨after, uri⟩ := inside
    rw [← uri, if_pos (List.prefix_append _ _)] at routed
    rw [← uri]
    cases after with
    | nil =>
        rw [List.append_nil, if_pos rfl] at routed
        rw [List.append_nil]
        refine .inl ⟨rfl, only (ascii "/") ?_⟩
        rw [← holds.path req.method (ascii "/") rfl, segments, if_pos rfl]
        exact routed.symm
    | cons c rest =>
        rw [if_neg (by simp), ← List.drop_drop, List.drop_left, List.drop_one,
          List.tail_cons] at routed
        have nonempty : rest ≠ [] := by
          rintro rfl
          rw [show ([] : Bytes).splitOn '/'.toUInt8 = [[]] from List.splitOn_nil _,
            holds.emptyRest] at routed
          cases routed
        refine .inr ⟨c, rest, rfl, only ('/'.toUInt8 :: rest) ?_, nonempty⟩
        rw [← holds.path req.method ('/'.toUInt8 :: rest) rfl, segments, if_neg]
        · exact routed.symm
        · intro root
          exact nonempty (List.cons.inj root).2
  · rw [if_neg inside] at routed
    cases routed

theorem not_mem_joined {basePath path : Bytes} (baseClean : '?'.toUInt8 ∉ basePath)
    (pathClean : '?'.toUInt8 ∉ path) : '?'.toUInt8 ∉ joined basePath path := by
  intro mark
  unfold joined at mark
  split at mark
  · exact baseClean mark
  · split at mark
    · rcases List.mem_append.mp mark with mark | mark
      · exact baseClean mark
      · exact pathClean (List.mem_of_mem_drop mark)
    · rcases List.mem_append.mp mark with mark | mark
      · exact baseClean mark
      · exact pathClean mark

/-- A path that is looked up whole was joined to its base path by its own slash, and no
query was cut off. -/
theorem joins_of_pathOf {basePath rest : Bytes} {c : UInt8} (nonempty : rest ≠ [])
    (uri : pathOf (joined basePath ('/'.toUInt8 :: rest)) = basePath ++ c :: rest) :
    basePath.getLast? ≠ some '/'.toUInt8 ∧ '?'.toUInt8 ∉ basePath ∧
      '?'.toUInt8 ∉ '/'.toUInt8 :: rest := by
  have root : '/'.toUInt8 :: rest ≠ ascii "/" := by
    intro root
    exact nonempty (List.cons.inj root).2
  have shorter := congrArg List.length uri
  have cut := (pathOf_begins_uri (joined basePath ('/'.toUInt8 :: rest))).length_le
  have ends : basePath.getLast? ≠ some '/'.toUInt8 := by
    intro ends
    rw [joined, if_neg root, if_pos ends] at shorter cut
    simp only [List.length_append, List.length_drop, List.length_cons] at shorter cut
    omega
  have whole : pathOf (joined basePath ('/'.toUInt8 :: rest)) =
      joined basePath ('/'.toUInt8 :: rest) := by
    apply (pathOf_begins_uri _).eq_of_length
    rw [uri, joined, if_neg root, if_neg ends]
    simp
  have clean := not_mem_pathOf (joined basePath ('/'.toUInt8 :: rest))
  rw [whole, joined, if_neg root, if_neg ends, List.mem_append, not_or] at clean
  exact ⟨ends, clean⟩

/-- A route is reachable under a base path if and only if the base path does not end in a
slash or the route is the root, and neither of them has a question mark. -/
theorem reachable_iff {basePath method path : Bytes} (slash : path.head? = some '/'.toUInt8) :
    Reachable basePath method path ↔
      (path = ascii "/" ∨ basePath.getLast? ≠ some '/'.toUInt8) ∧ '?'.toUInt8 ∉ basePath ∧
        '?'.toUInt8 ∉ path := by
  have markless : '?'.toUInt8 ∉ ascii "/" := by decide
  constructor
  · intro reachable
    obtain ⟨map, folded, holds⟩ := foldlM_addRouter
      [({ method := method, path := path, cb := some () } : Router Unit)] (by simpa using slash)
    obtain ⟨rtr, last, cb, callback, called⟩ := reachable
      [({ method := method, path := path, cb := some () } : Router Unit)] (fun _ => Prod.mk)
      { basePath := basePath, map := map } { method := method, uri := joined basePath path } {} []
      (by simpa using slash) (by simp) (by rw [construct, folded]; rfl) rfl (.inl rfl)
      (List.append_nil _).symm
    have found := path_of_singleton holds (route_of_called called)
    simp only at found
    rcases found with ⟨uri, rfl⟩ | ⟨c, rest, uri, rfl, nonempty⟩
    · rw [joined, if_pos rfl] at uri
      have clean := not_mem_pathOf basePath
      rw [uri] at clean
      exact ⟨.inl rfl, clean, markless⟩
    · obtain ⟨ends, clean⟩ := joins_of_pathOf nonempty uri
      exact ⟨.inr ends, clean⟩
  · rintro ⟨ends, baseClean, pathClean⟩ κ routers callbacks rh req res query valid listed
      constructed rfl starts uri
    have clean := not_mem_joined baseClean pathClean
    obtain ⟨base, folded⟩ := construct_ok constructed
    obtain ⟨map, refolded, holds⟩ := foldlM_addRouter routers fun rtr member => (valid rtr member).1
    rw [folded, Except.ok.injEq] at refolded
    subst refolded
    have routed := route_joined base holds slash ends
      (by rw [uri, pathOf_append_query clean starts])
    obtain ⟨rtr, member, last⟩ := lastRouter_of_listed listed
    have dispatched := dispatches_of_route (fun rtr member => (valid rtr member).2) callbacks res
      routed
    rw [Dispatches, last] at dispatched
    exact ⟨rtr, last, dispatched⟩

/-- The user is reachable under `/api`. -/
theorem user_reachable : Reachable (ascii "/api") (ascii "GET") (ascii "/user") :=
  (reachable_iff (by decide)).mpr (by decide)

/-- Under the default base path the user is not found, and so not reachable. -/
theorem user_unreachable :
    (∃ rh, construct Auth.getRouters (ascii "/") = .ok rh ∧
      NotFound (fun _ => Prod.mk) rh
        { method := ascii "GET", uri := ascii "/user" } {}) ∧
    ¬ Reachable (ascii "/") (ascii "GET") (ascii "/user") := by
  obtain ⟨rh, constructed, holds⟩ := construct_auth (ascii "/")
  obtain ⟨base, folded⟩ := construct_ok constructed
  have routed := route_eq rh { method := ascii "GET", uri := ascii "/user" }
  rw [base, held_of_foldlM folded] at routed
  have missed : NotFound (fun _ => Prod.mk) rh
      { method := ascii "GET", uri := ascii "/user" } {} := by
    apply notFound_of_route
    rw [routed]
    decide
  refine ⟨⟨rh, constructed, missed⟩, fun reachable => ?_⟩
  obtain ⟨rtr, last, cb, callback, called⟩ := reachable Auth.getRouters (fun _ => Prod.mk) rh
    { method := ascii "GET", uri := ascii "/user" } {} [] (by decide) (by decide)
    constructed rfl (.inl rfl) (by decide)
  rw [missed] at called
  cases called

end RequestHandler

end CleanArchitecture
