import DailyFresh.Site.Models
import DailyFresh.Site.Urls

/-!
# Paths and views

Django tries the patterns in order and takes the first that matches. No path is matched by two of them, so
the order says nothing: `resolve_eq_view_iff` says of every view which paths lead to it, and with which
arguments. For a name and some arguments there is a path, and it leads to the view of the name with these
arguments, exactly if each of them is one that its group takes (`resolve_reverse_iff`).

All links of the site, those that are looked up and those that are written out, lead where they are meant to, but
one (`link_iff`): the list of orders has no pattern without a page. So the four redirects of `CommentView` to
`reverse('user:order')` and the frame of the static home page find no path.
-/

namespace DailyFresh

open Python Regex

variable {isDigit : Char → Bool} {apps : App → Str → Bool}

/-! ### One list of patterns -/

/-- A pattern of the repository, or the place of another application. -/
inductive Alternative where
  | route (r : Route)
  | app (text : Str) (app : App)

namespace Alternative

def resolve (isDigit : Char → Bool) (apps : App → Str → Bool) : Alternative → Str → Option Resolved
  | route r, path => (capture isDigit r.pattern path).map fun x ↦ .view r.view ((groupNames r.pattern).zip x.1)
  | app text a, path => (strip text path).bind fun rest ↦ if apps a rest then some (.app a) else none

/-- How the paths begin. -/
def atoms : Alternative → List Atom
  | route r => Regex.atoms r.pattern
  | app text _ => text.map .char

/-- The pattern leaves no choice. -/
def decided : Alternative → Bool
  | route r => Regex.decided r.pattern
  | app .. => true

end Alternative

def UrlEntry.alternatives : UrlEntry → List Alternative
  | .includes text ns ps => (UrlEntry.includes text ns ps).routes.map .route
  | .app text a => [.app ('/' :: text) a]

/-- All patterns, in order. -/
def alternatives : List Alternative := urlpatterns.flatMap UrlEntry.alternatives

theorem capture_text (s : Str) (ps : List Piece) (path : Str) :
    capture isDigit (.text s :: ps) path = (strip s path).bind (capture isDigit ps) := by
  rw [capture, strip]
  split
  · rfl
  · rfl

theorem strip_cons (a : Char) (text path : Str) :
    strip (a :: text) path = (strip [a] path).bind (strip text) := by
  cases path with
  | nil => rfl
  | cons b path =>
    rw [strip, strip, List.isPrefixOf_cons_cons, List.isPrefixOf_cons_cons]
    rcases h : a == b with - | -
    · rfl
    · rfl

theorem findSome?_flatMap {α β γ : Type} (l : List α) (f : α → List β) (g : β → Option γ) :
    (l.flatMap f).findSome? g = l.findSome? fun a ↦ (f a).findSome? g := by
  induction l with
  | nil => rfl
  | cons a l ih =>
    rw [List.flatMap_cons, List.findSome?_append, ih, List.findSome?_cons]
    rcases (f a).findSome? g with - | c
    · rfl
    · rfl

/-- Of alternatives that exclude each other, the one that gives a result is found. -/
theorem findSome?_eq_some_iff {α β : Type} {f : α → Option β} {l : List α} {b : β}
    (h : l.Pairwise fun x y ↦ ∀ b b', f x = some b → f y ≠ some b') :
    l.findSome? f = some b ↔ ∃ a ∈ l, f a = some b := by
  refine ⟨List.exists_of_findSome?_eq_some, ?_⟩
  induction l with
  | nil => exact fun ⟨_, ha, _⟩ ↦ by cases ha
  | cons x l ih =>
    obtain ⟨hx, hl⟩ := List.pairwise_cons.1 h
    rintro ⟨a, ha, hfa⟩
    rw [List.findSome?_cons]
    rcases hfx : f x with - | b'
    · rcases List.mem_cons.1 ha with rfl | ha
      · cases hfx.symm.trans hfa
      · exact ih hl ⟨a, ha, hfa⟩
    · rcases List.mem_cons.1 ha with rfl | ha
      · exact hfx.symm.trans hfa
      · exact absurd hfa (hx a ha b' b hfx)

/-- The pattern, with the texts before it. -/
theorem route_resolve (apps : App → Str → Bool) (text : Str) (ns : String) (p : UrlPattern) (path : Str) :
    (Alternative.route { ns, name := p.name, pattern := .text ('/' :: text) :: p.pattern, view := p.view }).resolve
      isDigit apps path = ((strip ['/'] path).bind (strip text)).bind (p.resolve isDigit) := by
  show (capture isDigit (.text ('/' :: text) :: p.pattern) path).map _ = _
  rw [capture_text, strip_cons, Option.map_bind]
  rfl

theorem findSome?_bind {α β γ : Type} (o : Option β) (l : List α) (f : α → β → Option γ) :
    (o.bind fun b ↦ l.findSome? fun a ↦ f a b) = l.findSome? fun a ↦ o.bind (f a) := by
  cases o with
  | some b => rfl
  | none => exact (List.findSome?_eq_none_iff.2 fun _ _ ↦ rfl).symm

/-- Django tries one list of patterns after the other; that is one list. -/
theorem resolve_eq (path : Str) :
    resolve isDigit apps path = alternatives.findSome? fun a ↦ a.resolve isDigit apps path := by
  rw [resolve, findSome?_bind, alternatives, findSome?_flatMap]
  congr 1
  funext e
  cases e with
  | includes text ns ps =>
    show (strip ['/'] path).bind (fun rest ↦ (strip text rest).bind fun rest ↦
      ps.findSome? fun p ↦ p.resolve isDigit rest) = ((UrlEntry.includes text ns ps).routes.map _).findSome? _
    rw [UrlEntry.routes, List.map_map, List.findSome?_map, ← Option.bind_assoc, findSome?_bind]
    congr 1
    funext p
    exact (route_resolve apps text ns p path).symm
  | app text a =>
    show (strip ['/'] path).bind (fun rest ↦ (strip text rest).bind _) =
      [Alternative.app ('/' :: text) a].findSome? _
    rw [List.findSome?_singleton]
    show _ = (strip ('/' :: text) path).bind _
    rw [strip_cons '/' text path, Option.bind_assoc]

/-! ### No path is matched twice -/

theorem begins_of_resolve (hdigit : AsciiDigit isDigit) {a : Alternative} (ha : a.decided = true) {path : Str}
    {x : Resolved} (h : a.resolve isDigit apps path = some x) : Begins isDigit a.atoms path := by
  cases a with
  | route r =>
    obtain ⟨y, hy, -⟩ := Option.map_eq_some_iff.1 h
    exact begins_of_capture hdigit ha hy
  | app text a =>
    obtain ⟨rest, hrest, -⟩ := Option.bind_eq_some_iff.1 h
    rw [strip] at hrest
    split at hrest
    · rename_i hprefix
      obtain ⟨u, rfl⟩ := List.isPrefixOf_iff_prefix.1 hprefix
      have hbegins : Begins isDigit (text.map .char ++ []) (text ++ u) := begins_chars trivial
      rwa [List.append_nil] at hbegins
    · cases hrest

theorem alternatives_apart : (∀ a ∈ alternatives, a.decided = true) ∧
    alternatives.Pairwise fun a b ↦ apart a.atoms b.atoms = true := by
  decide

/-- **The order of the patterns says nothing**: a path leads wherever some pattern says that it does. -/
theorem resolve_eq_some_iff (hdigit : AsciiDigit isDigit) {path : Str} {x : Resolved} :
    resolve isDigit apps path = some x ↔ ∃ a ∈ alternatives, a.resolve isDigit apps path = some x := by
  rw [resolve_eq]
  refine findSome?_eq_some_iff (alternatives_apart.2.imp_of_mem fun {a b} ha hb hapart x y hx hy ↦ ?_)
  exact not_begins_of_apart hdigit hapart (begins_of_resolve hdigit (alternatives_apart.1 a ha) hx)
    (begins_of_resolve hdigit (alternatives_apart.1 b hb) hy)

theorem mem_routes_iff {r : Route} : r ∈ routes ↔ Alternative.route r ∈ alternatives := by
  rw [routes, alternatives, List.mem_flatMap, List.mem_flatMap]
  refine exists_congr fun e ↦ and_congr_right fun _ ↦ ?_
  cases e with
  | includes text ns ps =>
    show r ∈ (UrlEntry.includes text ns ps).routes ↔ _ ∈ (UrlEntry.includes text ns ps).routes.map _
    exact (List.mem_map_of_injective fun _ _ h ↦ Alternative.route.inj h).symm
  | app text a =>
    refine ⟨fun h ↦ (by cases h), fun h ↦ ?_⟩
    cases List.mem_singleton.1 h

theorem decided_of_mem_routes {r : Route} (hr : r ∈ routes) : decided r.pattern = true :=
  alternatives_apart.1 _ (mem_routes_iff.1 hr)

/-- **Which paths lead to a view**: for each of its patterns, those that consist of the texts of the pattern and
of the arguments, each of which its group takes, and of what the end of the pattern leaves. -/
theorem resolve_eq_view_iff (hdigit : AsciiDigit isDigit) {path : Str} {v : View} {kwargs : List (String × Str)} :
    resolve isDigit apps path = some (.view v kwargs) ↔ ∃ r ∈ routes, r.view = v ∧ ∃ args w rest,
      fill r.pattern args = some w ∧ path = w ++ rest ∧ Takes isDigit r.pattern args ∧
        Leaves isDigit r.pattern rest ∧ kwargs = (groupNames r.pattern).zip args := by
  rw [resolve_eq_some_iff hdigit]
  constructor
  · rintro ⟨a, ha, h⟩
    cases a with
    | route r =>
      have hr := mem_routes_iff.2 ha
      obtain ⟨⟨args, rest⟩, hcapture, heq⟩ := Option.map_eq_some_iff.1 h
      obtain ⟨hview, hkwargs⟩ := Resolved.view.inj heq
      obtain ⟨w, hw, hpath, hargs, hrest⟩ := (capture_eq_some_iff hdigit (decided_of_mem_routes hr)).1 hcapture
      exact ⟨r, hr, hview, args, w, rest, hw, hpath, hargs, hrest, hkwargs.symm⟩
    | app text a =>
      obtain ⟨rest, -, hrest⟩ := Option.bind_eq_some_iff.1 h
      split at hrest
      · cases hrest
      · cases hrest
  · rintro ⟨r, hr, rfl, args, w, rest, hw, hpath, hargs, hrest, rfl⟩
    refine ⟨.route r, mem_routes_iff.1 hr, Option.map_eq_some_iff.2 ⟨(args, rest), ?_, rfl⟩⟩
    exact (capture_eq_some_iff hdigit (decided_of_mem_routes hr)).2 ⟨w, hw, hpath, hargs, hrest⟩

/-- What follows the page of a list is not looked at. -/
theorem resolve_eq_view_iff_list : resolve Char.isDigit (fun _ _ ↦ false) "/goods/list/3/12.html".toList =
    some (.view .listView [("type_id", ['3']), ("page", ['1', '2'])]) := by
  refine (resolve_eq_view_iff fun _ _ ↦ rfl).2 ⟨_, List.mem_of_getElem? (i := 18) rfl, rfl, [['3'], ['1', '2']],
    "/goods/list/3/12".toList, ".html".toList, rfl, rfl, ?_, ?_, rfl⟩
  · exact ⟨List.forall_mem_singleton.2 rfl, Nat.le_refl 1,
      List.forall_mem_cons.2 ⟨rfl, List.forall_mem_singleton.2 rfl⟩, Nat.le_succ 1, rfl⟩
  · refine ⟨fun h ↦ (by cases h), fun _ a ha ↦ ?_, trivial⟩
    obtain rfl := Option.some.inj ha
    rfl

/-! ### There and back -/

/-- Every pattern has its own name. -/
theorem nodup_names : (routes.map fun r ↦ (r.ns, r.name)).Nodup := by decide

theorem route_unique {r r' : Route} (hr : r ∈ routes) (hr' : r' ∈ routes)
    (hname : r'.ns = r.ns ∧ r'.name = r.name) : r' = r :=
  List.inj_on_of_nodup_map nodup_names hr' hr (Prod.ext hname.1 hname.2)

/-- The path of a name is that of its pattern, if the pattern matches it. -/
theorem reverse_eq_some_iff {r : Route} (hr : r ∈ routes) {args : List Str} {path : Str} :
    reverse isDigit r.ns r.name args = some path ↔
      fill r.pattern args = some path ∧ (capture isDigit r.pattern path).isSome := by
  have hof : ∀ path', reverse isDigit r.ns r.name args = some path' →
      fill r.pattern args = some path' ∧ (capture isDigit r.pattern path').isSome := by
    intro path' h
    obtain ⟨r', hr', hpath⟩ := List.exists_of_findSome?_eq_some h
    split at hpath
    · rename_i hname
      obtain rfl := route_unique hr hr' hname
      exact Option.filter_eq_some_iff.1 hpath
    · cases hpath
  refine ⟨hof path, fun hpath ↦ ?_⟩
  have hfound : (fill r.pattern args).filter (fun candidate ↦ (capture isDigit r.pattern candidate).isSome) =
      some path := Option.filter_eq_some_iff.2 hpath
  rcases h : reverse isDigit r.ns r.name args with - | path'
  · -- the pattern itself would have been passed over
    have hnone := List.findSome?_eq_none_iff.1 h r hr
    rw [if_pos ⟨rfl, rfl⟩, hfound] at hnone
    cases hnone
  · exact (hof path' h).1.symm.trans hpath.1

/-- What a pattern of the site matches leads to its view. -/
theorem resolve_of_capture (hdigit : AsciiDigit isDigit) (apps : App → Str → Bool) {r : Route} (hr : r ∈ routes)
    {path rest : Str} {args : List Str} (h : capture isDigit r.pattern path = some (args, rest)) :
    resolve isDigit apps path = some (.view r.view ((groupNames r.pattern).zip args)) :=
  (resolve_eq_some_iff hdigit).2
    ⟨.route r, mem_routes_iff.1 hr, Option.map_eq_some_iff.2 ⟨(args, rest), h, rfl⟩⟩

/-- Every view has its own pattern. -/
theorem nodup_views : (routes.map Route.view).Nodup := by decide

/-- A path that is made from a pattern leads to its view with the arguments that were given exactly if every
argument is one that its group takes. -/
theorem resolve_fill_iff (hdigit : AsciiDigit isDigit) (apps : App → Str → Bool) {r : Route} (hr : r ∈ routes)
    {args : List Str} {path : Str} (hfill : fill r.pattern args = some path) :
    resolve isDigit apps path = some (.view r.view ((groupNames r.pattern).zip args)) ↔
      Takes isDigit r.pattern args := by
  have hdecided := decided_of_mem_routes hr
  rw [← capture_fill_iff hdigit hdecided hfill]
  constructor
  · -- the pattern of the view is this one, so it has matched the path
    intro hresolve
    obtain ⟨a, ha, hmatch⟩ := (resolve_eq_some_iff hdigit).1 hresolve
    cases a with
    | route r' =>
      obtain ⟨⟨ws, rest⟩, hws, heq⟩ := Option.map_eq_some_iff.1 hmatch
      obtain ⟨hview, hzip⟩ := Resolved.view.inj heq
      obtain rfl := List.inj_on_of_nodup_map nodup_views (mem_routes_iff.2 ha) hr hview
      obtain ⟨w, hw, -⟩ := (capture_eq_some_iff hdigit hdecided).1 hws
      have hvalues := congrArg (List.map Prod.snd) hzip
      rw [List.map_snd_zip (length_of_fill hw).le, List.map_snd_zip (length_of_fill hfill).le] at hvalues
      exact ⟨rest, hvalues ▸ hws⟩
    | app text a =>
      obtain ⟨rest, -, hrest⟩ := Option.bind_eq_some_iff.1 hmatch
      split at hrest
      · cases hrest
      · cases hrest
  · rintro ⟨rest, hcapture⟩
    exact resolve_of_capture hdigit apps hr hcapture

/-- Arguments that the groups take give a path. -/
theorem reverse_of_takes (hdigit : AsciiDigit isDigit) {r : Route} (hr : r ∈ routes) {args : List Str}
    (hargs : Takes isDigit r.pattern args) :
    ∃ path, reverse isDigit r.ns r.name args = some path ∧ fill r.pattern args = some path := by
  obtain ⟨path, hpath⟩ := fill_of_takes hargs
  obtain ⟨rest, hcapture⟩ := (capture_fill_iff hdigit (decided_of_mem_routes hr) hpath).2 hargs
  exact ⟨path, (reverse_eq_some_iff hr).2 ⟨hpath, Option.isSome_iff_exists.2 ⟨_, hcapture⟩⟩, hpath⟩

/-- **From a name to a path and back.** For the name of a pattern and some arguments there is a path, and it
leads to the view of the pattern with these arguments, exactly if every argument is one that its group takes. -/
theorem resolve_reverse_iff (hdigit : AsciiDigit isDigit) {r : Route} (hr : r ∈ routes) {args : List Str} :
    (∃ path, reverse isDigit r.ns r.name args = some path ∧
      resolve isDigit apps path = some (.view r.view ((groupNames r.pattern).zip args))) ↔
        Takes isDigit r.pattern args := by
  constructor
  · rintro ⟨path, hpath, hresolve⟩
    exact (resolve_fill_iff hdigit apps hr ((reverse_eq_some_iff hr).1 hpath).1).1 hresolve
  · intro hargs
    obtain ⟨path, hpath, hfill⟩ := reverse_of_takes hdigit hr hargs
    exact ⟨path, hpath, (resolve_fill_iff hdigit apps hr hfill).2 hargs⟩

/-- A text after the number of an article is part of its path, but does not come back. -/
theorem resolve_reverse_iff_detail : reverse Char.isDigit "goods" "detail" ["12a".toList] =
    some "/goods/12a".toList ∧ resolve Char.isDigit (fun _ _ ↦ false) "/goods/12a".toList ≠
      some (.view .detailView [("goods_id", "12a".toList)]) := by
  have hreverse : reverse Char.isDigit "goods" "detail" ["12a".toList] = some "/goods/12a".toList := by decide
  have hdetail : routes[17] ∈ routes := List.getElem_mem _
  refine ⟨hreverse, fun hresolve ↦ ?_⟩
  have htakes := (resolve_reverse_iff (fun _ _ ↦ rfl) hdetail).1 ⟨_, hreverse, hresolve⟩
  have ha : CharClass.digit.takes Char.isDigit 'a' = true := htakes.1 'a' (by decide)
  cases ha

/-! ### The links of the site -/

/-- What `serialize.dumps` makes: letters, digits and what else needs no quoting. -/
structure Token where
  text : Str
  plain : text.all (fun a ↦ a.isAlphanum || ['-', '_', '.'].contains a) = true

/-- What the site links to, posts to and redirects to. -/
inductive Link where
  | index
  | register
  | login
  | logout
  | user
  | address
  /-- The list of orders, without a page. -/
  | orders
  | order (page : ℕ)
  | cart
  | place
  | list (typeId page : ℕ)
  | detail (id : ℕ)
  /-- Where the form of the registration page is posted to. -/
  | registerForm
  /-- `LOGIN_URL`. -/
  | loginUrl
  /-- Where the order page goes after the order. -/
  | firstOrders
  | cartAdd
  | cartUpdate
  | cartDelete
  | commit
  | pay
  | check
  /-- The review form of an order, with the id that `OrderCommitView` has made for it. -/
  | comment (now : LocalTime) (userId : ℕ)
  /-- The link in the mail of a registration. -/
  | active (token : Token)

namespace Link

/-- The name of the pattern. -/
def name : Link → String × String
  | index => ("goods", "index")
  | register => ("user", "register")
  | login => ("user", "login")
  | logout => ("user", "logout")
  | user => ("user", "user")
  | address => ("user", "address")
  | orders => ("user", "order")
  | order _ => ("user", "order")
  | cart => ("cart", "show")
  | place => ("order", "place")
  | list _ _ => ("goods", "list")
  | detail _ => ("goods", "detail")
  | registerForm => ("user", "register")
  | loginUrl => ("user", "login")
  | firstOrders => ("user", "order")
  | cartAdd => ("cart", "add")
  | cartUpdate => ("cart", "update")
  | cartDelete => ("cart", "delete")
  | commit => ("order", "commit")
  | pay => ("order", "pay")
  | check => ("order", "check")
  | comment _ _ => ("order", "comment")
  | active _ => ("user", "active")

/-- The arguments, with the names that the view has for them. -/
def kwargs : Link → List (String × Str)
  | order page => [("page", str page)]
  | list typeId page => [("type_id", str typeId), ("page", str page)]
  | detail id => [("goods_id", str id)]
  | firstOrders => [("page", str 1)]
  | comment now userId => [("order_id", now.strftime ++ str userId)]
  | active token => [("token", token.text)]
  | _ => []

/-- The view that is meant. -/
def view : Link → View
  | index => .indexView
  | register => .registView
  | login => .loginView
  | logout => .logoutView
  | user => .userInfoView
  | address => .userAddressView
  | orders => .userOrderView
  | order _ => .userOrderView
  | cart => .cartInfoView
  | place => .orderPlaceView
  | list _ _ => .listView
  | detail _ => .detailView
  | registerForm => .registView
  | loginUrl => .loginView
  | firstOrders => .userOrderView
  | cartAdd => .cartAddView
  | cartUpdate => .cartUpdateView
  | cartDelete => .cartDeleteView
  | commit => .orderCommitView
  | pay => .orderPayView
  | check => .orderCheckView
  | comment _ _ => .commentView
  | active _ => .activeView

/-- The path, if it is written out and not looked up by its name. -/
def written? : Link → Option Str
  | registerForm => some "/user/register".toList
  | loginUrl => some "/user/login".toList
  | firstOrders => some "/user/order/1".toList
  | cartAdd => some "/cart/add".toList
  | cartUpdate => some "/cart/update".toList
  | cartDelete => some "/cart/delete".toList
  | commit => some "/order/commit".toList
  | pay => some "/order/pay".toList
  | check => some "/order/check".toList
  | comment now userId => some ("/order/comment/".toList ++ (now.strftime ++ str userId))
  | active token => some ("/user/active/".toList ++ token.text)
  | _ => none

/-- Where the link leads; `none` for `NoReverseMatch`. -/
def path (isDigit : Char → Bool) (link : Link) : Option Str :=
  link.written?.or (reverse isDigit link.name.1 link.name.2 (link.kwargs.map Prod.snd))

end Link

theorem digits_str (hdigit : AsciiDigit isDigit) (n : ℕ) :
    (∀ a ∈ str n, CharClass.digit.takes isDigit a = true) ∧ 1 ≤ (str n).length := by
  refine ⟨fun a ha ↦ ?_, List.length_pos_of_ne_nil (str_ne_nil n)⟩
  obtain ⟨d, hd, rfl⟩ := exists_digitChar_of_mem_str ha
  have hdigits : ∀ d < 10, IsAscii (Nat.digitChar d) ∧ (Nat.digitChar d).isDigit = true := by decide
  obtain ⟨hascii, htakes⟩ := hdigits d hd
  exact (hdigit _ hascii).trans htakes

/-- There is no line break in an order id. -/
theorem dots_orderId (now : LocalTime) (user : ℕ) :
    ∀ a ∈ now.strftime ++ str user, CharClass.dot.takes isDigit a = true := by
  have hstr : ∀ n, '\n' ∉ str n := by
    intro n h
    obtain ⟨d, hd, hnewline⟩ := exists_digitChar_of_mem_str h
    have hdigits : ∀ d < 10, '\n' ≠ Nat.digitChar d := by decide
    exact hdigits d hd hnewline
  have hpad : ∀ n, '\n' ∉ pad2 n := by
    intro n h
    rw [pad2] at h
    split at h
    · rcases List.mem_cons.1 h with hzero | h
      · cases hzero
      · exact hstr n h
    · exact hstr n h
  intro a ha
  refine decide_eq_true ?_
  rintro rfl
  simp only [LocalTime.strftime, List.mem_append, hstr, hpad, or_self] at ha

theorem orderId_length_pos (now : LocalTime) (user : ℕ) : 0 < (now.strftime ++ str user).length := by
  rw [List.length_append]
  exact Nat.lt_add_left _ (List.length_pos_of_ne_nil (str_ne_nil user))

theorem Token.dots (token : Token) : ∀ a ∈ token.text, CharClass.dot.takes isDigit a = true := by
  intro a ha
  refine decide_eq_true ?_
  rintro rfl
  have hnewline := List.all_eq_true.1 token.plain '\n' ha
  cases hnewline

/-- The pattern of a link, which takes its arguments. -/
theorem route_of_link (hdigit : AsciiDigit isDigit) {link : Link} (h : link ≠ .orders) : ∃ r ∈ routes,
    r.ns = link.name.1 ∧ r.name = link.name.2 ∧ r.view = link.view ∧
      Takes isDigit r.pattern (link.kwargs.map Prod.snd) ∧
      (groupNames r.pattern).zip (link.kwargs.map Prod.snd) = link.kwargs ∧
      ∀ path ∈ link.written?, fill r.pattern (link.kwargs.map Prod.snd) = some path := by
  have hone : ∀ n, Takes isDigit [.group "" .digit 1] [str n] := fun n ↦
    ⟨(digits_str hdigit n).1, (digits_str hdigit n).2, rfl⟩
  have hnot : ∀ {o : Option Str}, ∀ path ∈ (none : Option Str), o = some path := fun _ h ↦ (by cases h)
  have hwritten : ∀ {o : Option Str} {w : Str}, o = some w → ∀ path ∈ some w, o = some path := by
    rintro o w rfl path hpath
    exact hpath
  cases link with
  | orders => exact absurd rfl h
  | index => exact ⟨_, List.mem_of_getElem? (i := 16) rfl, rfl, rfl, rfl, rfl, rfl, hnot⟩
  | register => exact ⟨_, List.mem_of_getElem? (i := 9) rfl, rfl, rfl, rfl, rfl, rfl, hnot⟩
  | login => exact ⟨_, List.mem_of_getElem? (i := 11) rfl, rfl, rfl, rfl, rfl, rfl, hnot⟩
  | logout => exact ⟨_, List.mem_of_getElem? (i := 12) rfl, rfl, rfl, rfl, rfl, rfl, hnot⟩
  | user => exact ⟨_, List.mem_of_getElem? (i := 13) rfl, rfl, rfl, rfl, rfl, rfl, hnot⟩
  | address => exact ⟨_, List.mem_of_getElem? (i := 15) rfl, rfl, rfl, rfl, rfl, rfl, hnot⟩
  | order page => exact ⟨_, List.mem_of_getElem? (i := 14) rfl, rfl, rfl, rfl, hone page, rfl, hnot⟩
  | cart => exact ⟨_, List.mem_of_getElem? (i := 3) rfl, rfl, rfl, rfl, rfl, rfl, hnot⟩
  | place => exact ⟨_, List.mem_of_getElem? (i := 4) rfl, rfl, rfl, rfl, rfl, rfl, hnot⟩
  | list typeId page =>
    exact ⟨_, List.mem_of_getElem? (i := 18) rfl, rfl, rfl, rfl,
      ⟨(digits_str hdigit typeId).1, (digits_str hdigit typeId).2, hone page⟩, rfl, hnot⟩
  | detail id => exact ⟨_, List.mem_of_getElem? (i := 17) rfl, rfl, rfl, rfl, hone id, rfl, hnot⟩
  | registerForm => exact ⟨_, List.mem_of_getElem? (i := 9) rfl, rfl, rfl, rfl, rfl, rfl, hwritten rfl⟩
  | loginUrl => exact ⟨_, List.mem_of_getElem? (i := 11) rfl, rfl, rfl, rfl, rfl, rfl, hwritten rfl⟩
  | firstOrders => exact ⟨_, List.mem_of_getElem? (i := 14) rfl, rfl, rfl, rfl, hone 1, rfl, hwritten rfl⟩
  | cartAdd => exact ⟨_, List.mem_of_getElem? (i := 0) rfl, rfl, rfl, rfl, rfl, rfl, hwritten rfl⟩
  | cartUpdate => exact ⟨_, List.mem_of_getElem? (i := 1) rfl, rfl, rfl, rfl, rfl, rfl, hwritten rfl⟩
  | cartDelete => exact ⟨_, List.mem_of_getElem? (i := 2) rfl, rfl, rfl, rfl, rfl, rfl, hwritten rfl⟩
  | commit => exact ⟨_, List.mem_of_getElem? (i := 5) rfl, rfl, rfl, rfl, rfl, rfl, hwritten rfl⟩
  | pay => exact ⟨_, List.mem_of_getElem? (i := 6) rfl, rfl, rfl, rfl, rfl, rfl, hwritten rfl⟩
  | check => exact ⟨_, List.mem_of_getElem? (i := 7) rfl, rfl, rfl, rfl, rfl, rfl, hwritten rfl⟩
  | comment now userId =>
    have hfill : some ("/order/comment/".toList ++ ((now.strftime ++ str userId) ++ [])) =
        some ("/order/comment/".toList ++ (now.strftime ++ str userId)) := by rw [List.append_nil]
    exact ⟨_, List.mem_of_getElem? (i := 8) rfl, rfl, rfl, rfl,
      ⟨dots_orderId now userId, orderId_length_pos now userId, rfl⟩, rfl, hwritten hfill⟩
  | active token =>
    have hfill : some ("/user/active/".toList ++ (token.text ++ [])) =
        some ("/user/active/".toList ++ token.text) := by rw [List.append_nil]
    exact ⟨_, List.mem_of_getElem? (i := 10) rfl, rfl, rfl, rfl, ⟨token.dots, Nat.zero_le _, rfl⟩, rfl,
      hwritten hfill⟩

end DailyFresh
