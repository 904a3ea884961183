import DailyFresh.Python.Text
import DailyFresh.Regex.Groups

/-!
# The URL configuration

The patterns of `urls.py`, and the two ways in which Django uses them: `resolve` finds the view of a path,
trying the patterns in order, and `reverse` finds a path for the name of a pattern. Paths are meant before
they are quoted, as the server gets them.

The admin site, the search and the editor have patterns of their own, which are not part of the repository:
`apps` says which of the remaining texts they resolve.
-/

namespace DailyFresh

open Python Regex

/-! ### Patterns -/

/-- The views of the site. -/
inductive View where
  | registView
  | activeView
  | loginView
  | logoutView
  | userInfoView
  | userOrderView
  | userAddressView
  | indexView
  | detailView
  | listView
  | orderPlaceView
  | orderCommitView
  | orderPayView
  | orderCheckView
  | commentView
  | cartAddView
  | cartUpdateView
  | cartDeleteView
  | cartInfoView
  deriving DecidableEq

/-- Applications that bring their own patterns. -/
inductive App where
  /-- `admin.site.urls`. -/
  | admin
  /-- `haystack.urls`. -/
  | haystack
  /-- `tinymce.urls`. -/
  | tinymce
  deriving DecidableEq

/-- `re_path(r'^...', View.as_view(), name=name)`. -/
structure UrlPattern where
  pattern : List Piece
  view : View
  name : String

/-- What `urlpatterns` of the project consists of. Its patterns have no groups. -/
inductive UrlEntry where
  /-- `re_path(r'^text', include((urlpatterns, ns), namespace=ns))`. -/
  | includes (text : Str) (ns : String) (urlpatterns : List UrlPattern)
  /-- The same for another application. -/
  | app (text : Str) (app : App)

/-- `cart.urls`. -/
def cartUrls : List UrlPattern :=
  [{ pattern := [.text "add".toList, .finish], view := .cartAddView, name := "add" },
   { pattern := [.text "update".toList, .finish], view := .cartUpdateView, name := "update" },
   { pattern := [.text "delete".toList, .finish], view := .cartDeleteView, name := "delete" },
   { pattern := [.finish], view := .cartInfoView, name := "show" }]

/-- `order.urls`. -/
def orderUrls : List UrlPattern :=
  [{ pattern := [.text "place".toList, .finish], view := .orderPlaceView, name := "place" },
   { pattern := [.text "commit".toList, .finish], view := .orderCommitView, name := "commit" },
   { pattern := [.text "pay".toList, .finish], view := .orderPayView, name := "pay" },
   { pattern := [.text "check".toList, .finish], view := .orderCheckView, name := "check" },
   { pattern := [.text "comment/".toList, .group "order_id" .dot 1, .finish], view := .commentView,
     name := "comment" }]

/-- `user.urls`. -/
def userUrls : List UrlPattern :=
  [{ pattern := [.text "register".toList, .finish], view := .registView, name := "register" },
   { pattern := [.text "active/".toList, .group "token" .dot 0, .finish], view := .activeView,
     name := "active" },
   { pattern := [.text "login".toList, .finish], view := .loginView, name := "login" },
   { pattern := [.text "logout".toList, .finish], view := .logoutView, name := "logout" },
   { pattern := [.finish], view := .userInfoView, name := "user" },
   { pattern := [.text "order/".toList, .group "page" .digit 1, .finish], view := .userOrderView,
     name := "order" },
   { pattern := [.text "address".toList, .finish], view := .userAddressView, name := "address" }]

/-- `goods.urls`. -/
def goodsUrls : List UrlPattern :=
  [{ pattern := [.text "index/".toList, .finish], view := .indexView, name := "index" },
   { pattern := [.text "goods/".toList, .group "goods_id" .digit 1], view := .detailView, name := "detail" },
   { pattern := [.text "goods/list/".toList, .group "type_id" .digit 1, .text "/".toList,
       .group "page" .digit 1], view := .listView, name := "list" }]

/-- `urlpatterns` of the project. -/
def urlpatterns : List UrlEntry :=
  [.app "admin/".toList .admin, .app "search".toList .haystack, .app "tinymce/".toList .tinymce,
    .includes "cart/".toList "cart" cartUrls, .includes "order/".toList "order" orderUrls,
    .includes "user/".toList "user" userUrls, .includes [] "goods" goodsUrls]

/-! ### From paths to views -/

/-- What a path leads to. -/
inductive Resolved where
  | view (view : View) (kwargs : List (String × Str))
  | app (app : App)
  deriving DecidableEq

section Resolve

variable (isDigit : Char → Bool) (apps : App → Str → Bool)

/-- What is left of a path that begins with the text. -/
def strip (text path : Str) : Option Str :=
  if text.isPrefixOf path then some (path.drop text.length) else none

def UrlPattern.resolve (p : UrlPattern) (path : Str) : Option Resolved :=
  (capture isDigit p.pattern path).map fun x ↦ .view p.view ((groupNames p.pattern).zip x.1)

def UrlEntry.resolve : UrlEntry → Str → Option Resolved
  | .includes text _ ps, path => (strip text path).bind fun rest ↦ ps.findSome? fun p ↦ p.resolve isDigit rest
  | .app text a, path => (strip text path).bind fun rest ↦ if apps a rest then some (.app a) else none

/-- The view of a path; `none` where Django answers 404. -/
def resolve (path : Str) : Option Resolved :=
  (strip ['/'] path).bind fun rest ↦ urlpatterns.findSome? fun e ↦ e.resolve isDigit apps rest

end Resolve

/-! ### From names to paths -/

/-- A pattern with what stands before it. -/
structure Route where
  ns : String
  name : String
  pattern : List Piece
  view : View

def UrlEntry.routes : UrlEntry → List Route
  | .includes text ns ps => ps.map fun p ↦
      { ns, name := p.name, pattern := .text ('/' :: text) :: p.pattern, view := p.view }
  | .app _ _ => []

/-- All patterns of the repository. -/
def routes : List Route := urlpatterns.flatMap UrlEntry.routes

/-- `reverse('ns:name', args)`, the arguments in the order of the groups; `none` for `NoReverseMatch`. A
path is only accepted if the pattern matches it. -/
def reverse (isDigit : Char → Bool) (ns name : String) (args : List Str) : Option Str :=
  routes.findSome? fun r ↦
    if r.ns = ns ∧ r.name = name then
      (fill r.pattern args).filter fun candidate ↦ (capture isDigit r.pattern candidate).isSome
    else none

end DailyFresh
