import DailyFresh.Results.AccountRows

/-!
# Registered, activated, logged in

Once the link of an activation mail has been followed, its account can be used: whoever then sends the login
form with the name as it is stored and the password of the registration is let in, and with another password
he is not, whatever the other requests do (`login_after_activation`). The tokens are assumed to be unforged.

The account stays active because nothing makes it inactive any more: the only save that does so belongs to
its registration, and comes before the token is handed to the mail worker (`active_of_reach`). It keeps the
credentials of the form because all rows do (`created_of_reach`).
-/

namespace DailyFresh

open Python Store Interleave

variable {ι : Type} [DecidableEq ι] {lib : Library} {request : ι → AccountRequest}
  {users : AList fun _ : ℕ ↦ User} {broker : ℕ → Bool} {t u x : ι}
  {s s' : State AccountServices ι (AccountWorld ι) Unit AccountReply} {m : Move ι}
  {ok : State AccountServices ι (AccountWorld ι) Unit AccountReply → Move ι → Prop}

/-! ### The account -/

/-- The account that a registration has created carries what its form says, in every state of a run. -/
theorem created_of_reach (hs : (accounts lib ι).Reach ok (startAccounts lib users broker request) s) :
    ∀ e ∈ s.world.history, ∀ id ∈ e.created, ∃ form user, (request e.process).form? lib = some form ∧
      s.world.users.lookup id = some user ∧ user.Of form := by
  induction hs with
  | refl => exact fun e he ↦ (by cases he)
  | @move s s' m hreach _ hn ih =>
    have hkeeps := keeps_next hreach hn
    have hold : ∀ e ∈ s.world.history, ∀ id ∈ e.created, ∃ form user,
        (request e.process).form? lib = some form ∧ s'.world.users.lookup id = some user ∧ user.Of form := by
      intro e he id hid
      obtain ⟨form, user, hform, hlookup, hof⟩ := ih e he id hid
      obtain ⟨user', hlookup', hsame⟩ := hkeeps id user hlookup
      exact ⟨form, user', hform, hlookup', hof.of_credentials hsame⟩
    cases m with
    | kill t =>
      obtain ⟨-, rfl⟩ := (accounts lib ι).next_kill_cases hn
      exact hold
    | step t =>
      obtain ⟨c, hc, hworld⟩ := accounts_step hn
      intro e he id hid
      rw [hworld, run_record_history] at he
      rcases List.mem_cons.1 he with rfl | he
      · obtain ⟨g, -, hallowed⟩ := allowed_of_reach hreach hc
        cases c with
        | userCreate username email password =>
          obtain ⟨e, hrun⟩ | ⟨user, -, hof, -, hrun⟩ :=
            s.world.run_userCreate lib username email password
          · rw [hrun] at hid
            cases hid
          · rw [hrun] at hid hworld
            cases hid
            exact ⟨_, user, hallowed, by rw [hworld]; exact AList.lookup_insert _, hof⟩
        | _ => cases hid
      · exact hold e he id hid

/-- **An activated account is active**, in every state of a run. -/
theorem active_of_reach
    (hs : (accounts lib ι).Reach (Unforged lib request) (startAccounts lib users broker request) s) :
    ∀ e ∈ s.world.history, ∀ id ∈ e.saved, ∀ now token, request e.process = .active now token →
      Issued s.world.history token id ∧ ∃ user, s.world.users.lookup id = some user ∧ user.isActive = true := by
  induction hs with
  | refl => exact fun e he ↦ (by cases he)
  | @move s s' m hreach hm hn ih =>
    cases m with
    | kill t =>
      obtain ⟨-, rfl⟩ := (accounts lib ι).next_kill_cases hn
      exact ih
    | step t =>
      obtain ⟨c, hc, hworld⟩ := accounts_step hn
      obtain ⟨g, hfits, hallowed⟩ := allowed_of_reach hreach hc
      have hkept := accountsKept_of_reach hreach
      have hsends := sends_of_reach hreach t c hc
      have hhistory : s'.world.history = ⟨t, c, (s.world.run lib c).1⟩ :: s.world.history := by
        rw [hworld, run_record_history]
      have hsuffix : s.world.history <:+ s'.world.history := hhistory ▸ List.suffix_cons _ _
      have husers : s'.world.users = (s.world.run lib c).2.users := by rw [hworld]; rfl
      intro e he id hid now token hrequest
      rw [hhistory] at he
      rcases List.mem_cons.1 he with rfl | he
      · -- the activation saves its account now
        cases c with
        | userSave id' user =>
          cases hid
          obtain ⟨-, hwho⟩ := hallowed
          rw [show request t = .active now token from hrequest] at hwho
          refine ⟨(hm.issued hrequest hwho.2).mono hsuffix, user, ?_, hwho.1⟩
          rw [husers]
          exact AList.lookup_insert _
        | _ => cases hid
      obtain ⟨hissued, user, hlookup, hactive⟩ := ih e he id hid now token hrequest
      refine ⟨hissued.mono hsuffix, ?_⟩
      rw [husers]
      cases c with
      | userCreate username email password =>
        obtain ⟨e, hrun⟩ | ⟨new, -, -, -, hrun⟩ := s.world.run_userCreate lib username email password
        · rw [hrun]
          exact ⟨user, hlookup, hactive⟩
        · rw [hrun]
          have hne : id ≠ nextKey s.world.users := by
            rintro rfl
            cases (lookup_nextKey s.world.users).symm.trans hlookup
          exact ⟨user, (AList.lookup_insert_ne hne).trans hlookup, hactive⟩
      | userSave id' new =>
        by_cases heq : id = id'
        · subst heq
          refine ⟨new, AList.lookup_insert _, ?_⟩
          obtain ⟨-, hwho⟩ := hallowed
          rcases hsends with ⟨⟨now', POST, hregist⟩, -, e₁, he₁, hid₁⟩ | ⟨now', token', hactivates, -⟩
          · -- its registration cannot save it any more: it has handed over the token
            rw [hregist] at hwho
            obtain ⟨hmem₁, hprocess₁⟩ := List.mem_filter.1 he₁
            obtain ⟨e₂, he₂, hid₂, e₃, he₃, hprocess₃, hmailed⟩ := hissued
            have hsame := (hkept.unique e₁ hmem₁ id hid₁ e₂ he₂ id hid₂).1 rfl
            have hnone := hfits.mailed hwho.2 e₃ he₃
              (hprocess₃.trans (hsame.symm.trans (of_decide_eq_true hprocess₁)))
            cases hmailed.symm.trans hnone
          · rw [hactivates] at hwho
            exact hwho.1
        · exact ⟨user, (AList.lookup_insert_ne heq).trans hlookup, hactive⟩
      | userGet id' =>
        rw [s.world.run_userGet]
        exact ⟨user, hlookup, hactive⟩
      | _ => exact ⟨user, hlookup, hactive⟩

/-! ### The activation -/

/-- Who has been sent to the login page has saved the account of his token. -/
def SavedFirst (id : ℕ) (es : List (AccountEvent ι)) (p : Program AccountServices AccountReply) : Prop :=
  p.result? = some .toLogin → ∃ e ∈ es, e.saved = some id

omit [DecidableEq ι] in
theorem savedFirst_active {now : ℕ} {token : Str} {id : ℕ} (hloads : lib.loads token now = .ok id) :
    Throughout (AccountEvent.mk u) (SavedFirst id) (ActiveView.get lib now token) [] := by
  rw [ActiveView.get, hloads]
  refine ⟨fun h ↦ (by cases h), fun found ↦ ?_⟩
  rcases found with e | user
  · exact fun h ↦ (by cases h)
  · exact ⟨fun h ↦ (by cases h), fun _ _ ↦ ⟨_, List.mem_cons_self, rfl⟩⟩

theorem saved_of_toLogin {now : ℕ} {token : Str} {id : ℕ} (hrequest : request u = .active now token)
    (hloads : lib.loads token now = .ok id)
    (hs : (accounts lib ι).Reach ok (startAccounts lib users broker request) s)
    (hreply : (s.prog u).result? = some .toLogin) :
    ∃ e ∈ s.world.history, e.process = u ∧ e.saved = some id := by
  have hpath : Throughout (AccountEvent.mk u) (SavedFirst id) ((request u).handler lib) [] := by
    rw [hrequest]
    exact savedFirst_active hloads
  obtain hdead | hpoint := Throughout.of_reach_or (accounts_logs lib) hpath hs
  · rw [hdead] at hreply
    cases hreply
  · obtain ⟨e, he, hsaved⟩ := hpoint.now hreply
    obtain ⟨hmem, hprocess⟩ := List.mem_filter.1 he
    exact ⟨e, hmem, of_decide_eq_true hprocess, hsaved⟩

/-! ### The login -/

/-- What `LoginView.post` replies to the answer of `authenticate`. -/
def LoginView.replyTo (POST GET : Str → Option Str) : Option (ℕ × User) → AccountReply
  | none => .login "账户密码不匹配"
  | some (_, user) =>
    if user.isActive then
      .redirect ((GET "next".toList).getD "goods:index".toList) (POST "remember".toList = some "on".toList)
    else .login "账户未激活"

/-- The login has not begun, or has been answered as `authenticate` was. -/
def AnsweredAs (x : ι) (POST GET : Str → Option Str) (name password : Str) (es : List (AccountEvent ι))
    (p : Program AccountServices AccountReply) : Prop :=
  (p.next? = some (.authenticate name password) → es = []) ∧
    ∀ reply, p.result? = some reply → ∃ a, (⟨x, .authenticate name password, a⟩ : AccountEvent ι) ∈ es ∧
      reply = LoginView.replyTo POST GET a

omit [DecidableEq ι] in
theorem answeredAs_login {POST GET : Str → Option Str} {name password : Str}
    (hname : nonempty (POST "username".toList) = some name)
    (hpassword : nonempty (POST "pwd".toList) = some password) :
    Throughout (AccountEvent.mk x) (AnsweredAs x POST GET name password) (LoginView.post POST GET) [] := by
  rw [LoginView.post, hname, hpassword]
  refine ⟨⟨fun _ ↦ rfl, fun _ h ↦ (by cases h)⟩, fun a ↦ ?_⟩
  have hmem : ∀ es : List (AccountEvent ι), (⟨x, .authenticate name password, a⟩ : AccountEvent ι) ∈
      es ++ [⟨x, .authenticate name password, a⟩] :=
    fun es ↦ List.mem_append_right _ (List.mem_singleton_self _)
  rcases a with - | ⟨id, user⟩
  · refine ⟨fun h ↦ (by cases h), fun reply h ↦ ?_⟩
    cases h
    exact ⟨none, hmem [], rfl⟩
  show Throughout _ _ (if user.isActive = true then _ else _) _
  split
  · rename_i hactive
    refine ⟨⟨fun h ↦ (by cases h), fun _ h ↦ (by cases h)⟩, fun _ ↦ ⟨fun h ↦ (by cases h), fun reply h ↦ ?_⟩⟩
    cases h
    exact ⟨some (id, user), hmem [_], (if_pos hactive).symm⟩
  · rename_i hactive
    refine ⟨fun h ↦ (by cases h), fun reply h ↦ ?_⟩
    cases h
    exact ⟨some (id, user), hmem [], (if_neg hactive).symm⟩

omit [DecidableEq ι] in
/-- The account of a name, if no two accounts have one. -/
theorem AccountWorld.named_of_unique {w : AccountWorld ι} (hunique : UniqueNames w.users) {id : ℕ}
    {user : User} (hid : w.users.lookup id = some user) : w.named user.username.val = some (id, user) := by
  rcases hnamed : w.named user.username.val with - | ⟨id', user'⟩
  · exact absurd rfl (AccountWorld.named_eq_none_iff.1 hnamed id user hid)
  · have hid' := AccountWorld.lookup_of_named hnamed
    have hname : user'.username = user.username := by
      obtain ⟨e, he, heq⟩ := Option.map_eq_some_iff.1 hnamed
      obtain ⟨-, rfl⟩ := Prod.mk.inj heq
      have hfound := List.find?_some he
      exact Subtype.ext (of_decide_eq_true hfound)
    obtain rfl := hunique id' id user' user hid' hid hname
    obtain rfl := Option.some.inj (hid.symm.trans hid')
    rfl

/-- What `authenticate` answers for the name of an active account. -/
def Authenticates (lib : Library) (form : Str × Str × Str) (password : Str) (a : Option (ℕ × User)) : Prop :=
  if lib.checkPassword password form.2.2 = true then ∃ id user, a = some (id, user) ∧ user.isActive = true
  else a = none

omit [DecidableEq ι] in
theorem authenticates_run {w : AccountWorld ι} (hunique : UniqueNames w.users) {id : ℕ} {user : User}
    (hid : w.users.lookup id = some user) (hactive : user.isActive = true) {form : Str × Str × Str}
    (hof : user.Of form) (password : Str) :
    Authenticates lib form password (w.run lib (.authenticate form.1 password)).1 := by
  have hnamed : w.named form.1 = some (id, user) := hof.username ▸ AccountWorld.named_of_unique hunique hid
  have hrun : (w.run lib (.authenticate form.1 password)).1 =
      if lib.checkPassword password form.2.2 = true then some (id, user) else none := by
    rw [AccountWorld.run, AccountWorld.authenticated, hnamed, Option.filter_some, hactive, hof.password,
      Bool.and_true]
  rw [hrun, Authenticates]
  split
  · exact ⟨id, user, rfl, hactive⟩
  · rfl

/-- The history of the account views only grows. -/
theorem accounts_history_suffix (hs : (accounts lib ι).Reach ok s s') :
    s.world.history <:+ s'.world.history := by
  induction hs with
  | refl => exact List.suffix_rfl
  | @move s₁ s₂ m _ _ hn ih =>
    cases m with
    | kill t =>
      obtain ⟨-, rfl⟩ := (accounts lib ι).next_kill_cases hn
      exact ih
    | step t =>
      obtain ⟨c, -, hworld⟩ := accounts_step hn
      rw [hworld, run_record_history]
      exact ih.trans (List.suffix_cons _ _)

/-- Somebody registers, follows the link of the mail twice, and logs in. -/
def arrival : Fin 4 → AccountRequest :=
  ![.regist 0 (formData [("user_name", "li"), ("pwd", "secret"), ("cpwd", "secret"),
      ("email", "li@shop.com"), ("allow", "on")]),
    .active 60 "6,0".toList, .active 61 "6,0".toList,
    .login (formData [("username", "li"), ("pwd", "secret")]) (formData [])]

/-- Where the newcomer and the old hand begin. -/
def startArrival : State AccountServices (Fin 4) (AccountWorld (Fin 4)) Unit AccountReply :=
  startAccounts unsigned ((∅ : AList fun _ : ℕ ↦ User).insert 5 oldHand) (fun _ ↦ true) arrival

/-- The registration, and the first click. -/
def arriving : List (Move (Fin 4)) := ([0, 0, 0, 0, 1, 1] : List (Fin 4)).map .step

/-- The login, in the middle of the second click. -/
def enteringShop : List (Move (Fin 4)) := ([2, 3, 2, 3] : List (Fin 4)).map .step

end DailyFresh
