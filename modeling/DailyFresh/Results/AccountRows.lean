import DailyFresh.Interleave.Monitor
import DailyFresh.Results.Activation

/-!
# Account rows

`RegistView` and `ActiveView` save whole rows that they have read before, outside any transaction, so a save
may write an old row back over a newer one. For accounts this is harmless: all columns but `is_active` of an
account never change. `credentials_kept` says so of any number of requests to the account views, in any
interleaving, killed anywhere; and that the usernames stay unique, and that every account that was not there
at the start carries what some registration form says.

The proof is a monitor for each request (`accountViews`) whose processes count on each other: the row that
a request has read keeps its credentials because nobody saves other ones.
-/

namespace DailyFresh

open Python Store Interleave

variable {ι : Type}

/-- An account without its state of activation. -/
def User.credentials (user : User) : User := { user with isActive := false }

/-- No two accounts have one name. -/
def UniqueNames (users : AList fun _ : ℕ ↦ User) : Prop :=
  ∀ id id' user user', users.lookup id = some user → users.lookup id' = some user' →
    user.username = user'.username → id = id'

/-- The later table has every account of the earlier one, with its credentials. -/
def Keeps (users users' : AList fun _ : ℕ ↦ User) : Prop :=
  ∀ id user, users.lookup id = some user →
    ∃ user', users'.lookup id = some user' ∧ user'.credentials = user.credentials

theorem Keeps.refl (users : AList fun _ : ℕ ↦ User) : Keeps users users := fun _ user h ↦ ⟨user, h, rfl⟩

theorem Keeps.trans {users users' users'' : AList fun _ : ℕ ↦ User} (h : Keeps users users')
    (h' : Keeps users' users'') : Keeps users users'' := by
  intro id user hid
  obtain ⟨user', hid', hsame⟩ := h id user hid
  obtain ⟨user'', hid'', hsame'⟩ := h' id user' hid'
  exact ⟨user'', hid'', hsame'.trans hsame⟩

/-- What a registration form asks to be stored: the name, the address and the password, as
`create_user` stores them. -/
def AccountRequest.form? (lib : Library) : AccountRequest → Option (Str × Str × Str)
  | regist _ POST => do
    let username ← nonempty (POST "user_name".toList)
    let password ← nonempty (POST "pwd".toList)
    let email ← nonempty (POST "email".toList)
    some (lib.normalizeUsername username, lib.normalizeEmail email, lib.makePassword password)
  | _ => none

/-- The account carries what this form asks for. -/
structure User.Of (user : User) (form : Str × Str × Str) : Prop where
  username : user.username.val = form.1
  email : user.email.val = form.2.1
  password : user.password.val = form.2.2

/-! ### One command -/

section Commands

variable {lib : Library} {w : AccountWorld ι}

theorem AccountWorld.named_eq_none_iff {username : Str} : w.named username = none ↔
    ∀ id user, w.users.lookup id = some user → user.username.val ≠ username := by
  rw [AccountWorld.named, Option.map_eq_none_iff, List.find?_eq_none]
  constructor
  · intro h id user hid hname
    exact h ⟨id, user⟩ (AList.mem_lookup_iff.1 hid) (decide_eq_true hname)
  · intro h e he hname
    exact h e.1 e.2 (AList.mem_lookup_iff.2 he) (of_decide_eq_true hname)

theorem User.of_row? {username email password : Str} {user : User}
    (h : User.row? username email password = some user) :
    user.Of (username, email, password) ∧ user.isActive = true := by
  simp only [User.row?, Option.bind_eq_bind, Option.bind_eq_some_iff, TextColumn.store?_eq_some_iff] at h
  obtain ⟨name, hname, pwd, hpwd, addr, haddr, hrow⟩ := h
  cases hrow
  exact ⟨⟨hname, haddr, hpwd⟩, rfl⟩

/-- **The creation of an account**: it fails, or adds an account under a name that nobody has. -/
theorem AccountWorld.run_userCreate (lib : Library) (w : AccountWorld ι) (username email password : Str) :
    (∃ e, w.run lib (.userCreate username email password) = (.error e, w)) ∨
      ∃ user, w.named username = none ∧ user.Of (username, email, password) ∧ user.isActive = true ∧
        w.run lib (.userCreate username email password) =
          (.ok (nextKey w.users, user), { w with users := w.users.insert (nextKey w.users) user }) := by
  rw [AccountWorld.run]
  rcases hrow : User.row? username email password with - | user
  · exact .inl ⟨_, rfl⟩
  rcases hnamed : w.named username with - | taken
  · obtain ⟨hof, hactive⟩ := User.of_row? hrow
    exact .inr ⟨user, rfl, hof, hactive, rfl⟩
  · exact .inl ⟨_, rfl⟩

theorem keeps_insert_nextKey (users : AList fun _ : ℕ ↦ User) (user : User) :
    Keeps users (users.insert (nextKey users) user) := by
  intro id old hid
  have hne : id ≠ nextKey users := by
    rintro rfl
    cases (lookup_nextKey users).symm.trans hid
  exact ⟨old, (AList.lookup_insert_ne hne).trans hid, rfl⟩

theorem keeps_insert_of_same {users : AList fun _ : ℕ ↦ User} {id : ℕ} {old user : User}
    (hid : users.lookup id = some old) (hsame : user.credentials = old.credentials) :
    Keeps users (users.insert id user) := by
  intro id' old' hid'
  by_cases heq : id' = id
  · subst heq
    obtain rfl := Option.some.inj (hid.symm.trans hid')
    exact ⟨user, AList.lookup_insert _, hsame⟩
  · exact ⟨old', (AList.lookup_insert_ne heq).trans hid', rfl⟩

theorem username_eq_of_credentials {user user' : User} (h : user'.credentials = user.credentials) :
    user'.username = user.username ∧ user'.password = user.password ∧ user'.email = user.email := by
  obtain ⟨hname, hpassword, hemail, -⟩ := User.mk.inj h
  exact ⟨hname, hpassword, hemail⟩

theorem User.Of.of_credentials {user user' : User} {form : Str × Str × Str} (h : user.Of form)
    (hsame : user'.credentials = user.credentials) : user'.Of form := by
  obtain ⟨hname, hpassword, hemail⟩ := username_eq_of_credentials hsame
  exact ⟨hname ▸ h.username, hemail ▸ h.email, hpassword ▸ h.password⟩

end Commands

theorem lookup_insert_cases {users : AList fun _ : ℕ ↦ User} {id₀ id : ℕ} {user₀ user : User}
    (h : (users.insert id₀ user₀).lookup id = some user) :
    id = id₀ ∧ user = user₀ ∨ id ≠ id₀ ∧ users.lookup id = some user := by
  by_cases hid : id = id₀
  · subst hid
    rw [AList.lookup_insert] at h
    exact .inl ⟨rfl, (Option.some.inj h).symm⟩
  · rw [AList.lookup_insert_ne hid] at h
    exact .inr ⟨hid, h⟩

theorem UniqueNames.insert {users : AList fun _ : ℕ ↦ User} (h : UniqueNames users) {id₀ : ℕ} {user₀ : User}
    (hnew : ∀ id user, users.lookup id = some user → user.username = user₀.username → id = id₀) :
    UniqueNames (users.insert id₀ user₀) := by
  intro id id' user user' hid hid' hname
  obtain ⟨rfl, rfl⟩ | ⟨-, hold⟩ := lookup_insert_cases hid
  · obtain ⟨rfl, -⟩ | ⟨-, hold'⟩ := lookup_insert_cases hid'
    · rfl
    · exact (hnew id' user' hold' hname.symm).symm
  · obtain ⟨rfl, rfl⟩ | ⟨-, hold'⟩ := lookup_insert_cases hid'
    · exact hnew id user hold hname
    · exact h id id' user user' hold hold' hname

/-- One account alone. -/
theorem uniqueNames_insert_empty (id : ℕ) (user : User) :
    UniqueNames ((∅ : AList fun _ : ℕ ↦ User).insert id user) := by
  have hnone : ∀ id' user', (∅ : AList fun _ : ℕ ↦ User).lookup id' ≠ some user' := fun id' user' hid ↦ by
    rw [AList.lookup_empty] at hid
    cases hid
  have hempty : UniqueNames ∅ := fun id' _ user' _ hid ↦ absurd hid (hnone id' user')
  exact hempty.insert fun id' user' hid ↦ absurd hid (hnone id' user')

/-! ### What a request may save -/

/-- What a request has come to: the row that it has read or created last, and whether it has handed a token to
the mail worker. -/
structure AccountTrace where
  row : Option (ℕ × User)
  mailed : Bool

/-- The monitor of the account views: a registration creates the account of its form, and saves it as an
inactive one before it hands over the token; an activation saves the account of its token as an active
one; and what is saved has the credentials of what was read. -/
def accountViews (lib : Library) (r : AccountRequest) : Monitor AccountServices AccountTrace where
  allowed g
    | .userCreate username email password => r.form? lib = some (username, email, password)
    | .userSave id user => (∃ old, g.row = some (id, old) ∧ user.credentials = old.credentials) ∧
        match r with
        | .regist .. => user.isActive = false ∧ g.mailed = false
        | .active now token => user.isActive = true ∧ lib.loads token now = .ok id
        | .login .. => False
    | _ => True
  after g
    | .userCreate .., .ok row => { g with row := some row }
    | .userGet id, .ok user => { g with row := some (id, user) }
    | .delay .., _ => { g with mailed := true }
    | _, _ => g

section Programs

variable {lib : Library}

theorem accountViews_regist (now : ℕ) (POST : Str → Option Str) :
    (accountViews lib (.regist now POST)).Accepts (fun _ _ ↦ True) (RegistView.post lib now POST)
      ⟨none, false⟩ := by
  rw [RegistView.post]
  split
  · rename_i username password repassword email husername hpassword _ hemail
    have hform : (AccountRequest.regist now POST).form? lib = some (lib.normalizeUsername username,
        lib.normalizeEmail email, lib.makePassword password) := by
      rw [AccountRequest.form?, husername, hpassword, hemail]
      rfl
    split
    · trivial
    split
    · trivial
    split
    · trivial
    refine .send trivial fun found ↦ ?_
    rcases found with - | x
    · refine .send hform fun created ↦ ?_
      rcases created with e | ⟨id, user⟩
      · trivial
      refine .send ⟨⟨user, rfl, rfl⟩, rfl, rfl⟩ fun _ ↦ .send trivial fun sent ↦ ?_
      split
      · trivial
      · trivial
    · trivial
  · trivial

theorem accountViews_active (now : ℕ) (token : Str) :
    (accountViews lib (.active now token)).Accepts (fun _ _ ↦ True) (ActiveView.get lib now token)
      ⟨none, false⟩ := by
  rw [ActiveView.get]
  rcases hloads : lib.loads token now with e | id
  · rcases e with - | -
    · trivial
    · trivial
  · refine .send trivial fun found ↦ ?_
    rcases found with e | user
    · trivial
    · exact .send ⟨⟨user, rfl, rfl⟩, rfl, hloads⟩ fun _ ↦ trivial

theorem accountViews_login (POST GET : Str → Option Str) :
    (accountViews lib (.login POST GET)).Accepts (fun _ _ ↦ True) (LoginView.post POST GET)
      ⟨none, false⟩ := by
  rw [LoginView.post]
  split
  · refine .send trivial fun found ↦ ?_
    rcases found with - | ⟨id, user⟩
    · trivial
    dsimp only
    split
    · exact .send trivial fun _ ↦ trivial
    · trivial
  · trivial

/-- **Every request saves like this**, on every path. -/
theorem accountViews_handler (r : AccountRequest) :
    (accountViews lib r).Accepts (fun _ _ ↦ True) (r.handler lib) ⟨none, false⟩ := by
  rcases r with ⟨now, POST⟩ | ⟨now, token⟩ | ⟨POST, GET⟩
  · exact accountViews_regist now POST
  · exact accountViews_active now token
  · exact accountViews_login POST GET

end Programs

/-! ### Runs -/

section Runs

variable {lib : Library} {request : ι → AccountRequest} {w w' : AccountWorld ι} {t : ι} {g : AccountTrace}
  {c : AccountCmd}

/-- What request `t` has read is still there, with its credentials; and what it has handed over is in the
history. -/
structure AccountTrace.Fits (t : ι) (w : AccountWorld ι) (g : AccountTrace) : Prop where
  row : ∀ id old, g.row = some (id, old) →
    ∃ user, w.users.lookup id = some user ∧ user.credentials = old.credentials
  mailed : g.mailed = false → ∀ e ∈ w.history, e.process = t → e.mailed = none

theorem AccountTrace.Fits.keeps (h : g.Fits t w) (hkeeps : Keeps w.users w'.users)
    (hmailed : g.mailed = false → ∀ e ∈ w'.history, e.process = t → e.mailed = none) : g.Fits t w' where
  row id old hrow := by
    obtain ⟨user, hid, hsame⟩ := h.row id old hrow
    obtain ⟨user', hid', hsame'⟩ := hkeeps id user hid
    exact ⟨user', hid', hsame'.trans hsame⟩
  mailed := hmailed

/-- **A command that is allowed keeps all credentials.** -/
theorem keeps_of_allowed (h : g.Fits t w) {r : AccountRequest} (hc : (accountViews lib r).allowed g c) :
    Keeps w.users (w.run lib c).2.users := by
  cases c with
  | userCreate username email password =>
    obtain ⟨e, hrun⟩ | ⟨user, -, -, -, hrun⟩ := w.run_userCreate lib username email password
    · rw [hrun]
      exact .refl _
    · rw [hrun]
      exact keeps_insert_nextKey w.users user
  | userSave id user =>
    obtain ⟨⟨old, hrow, hsame⟩, -⟩ := hc
    obtain ⟨user', hid, hsame'⟩ := h.row id old hrow
    exact keeps_insert_of_same hid (hsame.trans hsame'.symm)
  | userGet id =>
    rw [w.run_userGet]
    exact .refl _
  | _ => exact .refl _

theorem run_record_history (lib : Library) (w : AccountWorld ι) (t : ι) (c : AccountCmd) :
    ((w.run lib c).2.record t c (w.run lib c).1).history = ⟨t, c, (w.run lib c).1⟩ :: w.history := by
  rw [AccountWorld.record, AccountWorld.run_history]

/-- What the request has read fits after its own command. -/
theorem AccountTrace.Fits.own (h : g.Fits t w) {r : AccountRequest}
    (hc : (accountViews lib r).allowed g c) :
    ((accountViews lib r).after g c (w.run lib c).1).Fits t
      ((w.run lib c).2.record t c (w.run lib c).1) := by
  have hkeeps : Keeps w.users ((w.run lib c).2.record t c (w.run lib c).1).users := keeps_of_allowed h hc
  have hunmailed : AccountEvent.mailed (⟨t, c, (w.run lib c).1⟩ : AccountEvent ι) = none → g.mailed = false →
      ∀ e ∈ ((w.run lib c).2.record t c (w.run lib c).1).history, e.process = t → e.mailed = none := by
    intro hnone hmailed e he hprocess
    rw [run_record_history] at he
    rcases List.mem_cons.1 he with rfl | he
    · exact hnone
    · exact h.mailed hmailed e he hprocess
  cases c with
  | userCreate username email password =>
    have hnone := hunmailed rfl
    obtain ⟨e, hrun⟩ | ⟨user, -, -, -, hrun⟩ := w.run_userCreate lib username email password
    · rw [hrun] at hnone hkeeps ⊢
      exact h.keeps hkeeps hnone
    · rw [hrun] at hnone ⊢
      refine ⟨fun id old hrow ↦ ?_, hnone⟩
      cases hrow
      exact ⟨_, AList.lookup_insert _, rfl⟩
  | userGet id =>
    have hnone := hunmailed rfl
    rcases hlookup : w.users.lookup id with - | user
    · have hrun : w.run lib (.userGet id) = (.error .doesNotExist, w) := by
        rw [AccountWorld.run, hlookup]
      rw [hrun] at hnone hkeeps ⊢
      exact h.keeps hkeeps hnone
    · have hrun : w.run lib (.userGet id) = (.ok user, w) := by
        rw [AccountWorld.run, hlookup]
      rw [hrun] at hnone ⊢
      refine ⟨fun id' old hrow ↦ ?_, hnone⟩
      cases hrow
      exact ⟨user, hlookup, rfl⟩
  | delay email username token =>
    exact ⟨h.row, fun hfalse ↦ (by cases hfalse)⟩
  | _ => exact h.keeps hkeeps (hunmailed rfl)

theorem cooperates_accountViews (lib : Library) (request : ι → AccountRequest) :
    Monitor.Cooperates (fun t ↦ accountViews lib (request t)) (accounts lib ι)
      (fun t w _ g ↦ g.Fits t w) where
  own h hc hx := by
    cases hx
    exact h.own hc
  other {t u w l lu g gu c r w' l'} hu h hc hother hx := by
    cases hx
    refine hother.keeps (keeps_of_allowed h hc) fun hmailed e he hprocess ↦ ?_
    rw [run_record_history] at he
    rcases List.mem_cons.1 he with rfl | he
    · exact absurd hprocess.symm hu
    · exact hother.mailed hmailed e he hprocess
  abort h := h
  abortOther _ h := h

variable [DecidableEq ι] {users : AList fun _ : ℕ ↦ User} {broker : ℕ → Bool}
  {s s' : State AccountServices ι (AccountWorld ι) Unit AccountReply} {m : Move ι}
  {ok : State AccountServices ι (AccountWorld ι) Unit AccountReply → Move ι → Prop}

/-- **What is about to be sent**, in every state of a run, is what the request may send after what it has
read. -/
theorem allowed_of_reach
    (hs : (accounts lib ι).Reach ok (startAccounts lib users broker request) s)
    (hc : (s.prog t).next? = some c) : ∃ g : AccountTrace, g.Fits t s.world ∧
      (accountViews lib (request t)).allowed g c := by
  have hstart : Monitor.Watched (fun t ↦ accountViews lib (request t)) (fun t w _ g ↦ g.Fits t w)
      (startAccounts lib users broker request) := by
    intro u
    refine ⟨⟨none, false⟩, ⟨fun _ _ hrow ↦ (by cases hrow), fun _ e he ↦ (by cases he)⟩, ?_⟩
    exact accountViews_handler (request u)
  exact ((cooperates_accountViews lib request).sound hstart hs).allowed hc

/-- One move keeps all credentials. -/
theorem keeps_next (hs : (accounts lib ι).Reach ok (startAccounts lib users broker request) s)
    (hn : (accounts lib ι).next s m = some s') : Keeps s.world.users s'.world.users := by
  cases m with
  | step t =>
    obtain ⟨c, hc, hworld⟩ := accounts_step hn
    obtain ⟨g, hfits, hallowed⟩ := allowed_of_reach hs hc
    rw [hworld]
    exact keeps_of_allowed hfits hallowed
  | kill t =>
    obtain ⟨-, rfl⟩ := (accounts lib ι).next_kill_cases hn
    exact .refl _

/-- The accounts of a table were there at the start, or have been registered. -/
def Registered (lib : Library) (request : ι → AccountRequest) (users₀ users : AList fun _ : ℕ ↦ User) :
    Prop :=
  ∀ id user, users.lookup id = some user →
    (∃ user₀, users₀.lookup id = some user₀ ∧ user.credentials = user₀.credentials) ∨
      ∃ t form, (request t).form? lib = some form ∧ user.Of form

/-- One move keeps the names unique, and adds registered accounts only. -/
theorem registered_next (hs : (accounts lib ι).Reach ok (startAccounts lib users broker request) s)
    (hn : (accounts lib ι).next s m = some s') (hunique : UniqueNames s.world.users)
    (hregistered : Registered lib request users s.world.users) :
    UniqueNames s'.world.users ∧ Registered lib request users s'.world.users := by
  cases m with
  | kill t =>
    obtain ⟨-, rfl⟩ := (accounts lib ι).next_kill_cases hn
    exact ⟨hunique, hregistered⟩
  | step t =>
    obtain ⟨c, hc, hworld⟩ := accounts_step hn
    obtain ⟨g, hfits, hallowed⟩ := allowed_of_reach hs hc
    have husers : s'.world.users = (s.world.run lib c).2.users := by rw [hworld]; rfl
    rw [husers]
    cases c with
    | userCreate username email password =>
      obtain ⟨e, hrun⟩ | ⟨user, hnew, hof, -, hrun⟩ := s.world.run_userCreate lib username email password
      · rw [hrun]
        exact ⟨hunique, hregistered⟩
      rw [hrun]
      refine ⟨hunique.insert fun id old hid hname ↦ ?_, fun id old hid ↦ ?_⟩
      · have htaken : old.username.val = username := (congrArg Subtype.val hname).trans hof.username
        exact absurd htaken (AccountWorld.named_eq_none_iff.1 hnew id old hid)
      · obtain ⟨-, rfl⟩ | ⟨-, hold⟩ := lookup_insert_cases hid
        · exact .inr ⟨t, _, hallowed, hof⟩
        · exact hregistered id old hold
    | userSave id user =>
      obtain ⟨⟨old, hrow, hsame⟩, -⟩ := hallowed
      obtain ⟨current, hid, hsame'⟩ := hfits.row id old hrow
      have hcurrent : user.credentials = current.credentials := hsame.trans hsame'.symm
      refine ⟨hunique.insert fun id' other hid' hname ↦ ?_, fun id' other hid' ↦ ?_⟩
      · exact hunique id' id other current hid' hid (hname.trans (username_eq_of_credentials hcurrent).1)
      · obtain ⟨rfl, rfl⟩ | ⟨-, hold⟩ := lookup_insert_cases hid'
        · obtain ⟨user₀, hid₀, hsame₀⟩ | ⟨t', form, hform, hof⟩ := hregistered id' current hid
          · exact .inl ⟨user₀, hid₀, hcurrent.trans hsame₀⟩
          · exact .inr ⟨t', form, hform, hof.of_credentials hcurrent⟩
        · exact hregistered id' other hold
    | userGet id =>
      rw [s.world.run_userGet]
      exact ⟨hunique, hregistered⟩
    | _ => exact ⟨hunique, hregistered⟩

theorem keeps_of_reach (hs : (accounts lib ι).Reach ok (startAccounts lib users broker request) s)
    (hs' : (accounts lib ι).Reach ok s s') : Keeps s.world.users s'.world.users := by
  induction hs' with
  | refl => exact .refl _
  | move hreach _ hn ih => exact ih.trans (keeps_next (hs.trans hreach) hn)

theorem registered_of_reach (hunique : UniqueNames users)
    (hs : (accounts lib ι).Reach ok (startAccounts lib users broker request) s) :
    UniqueNames s.world.users ∧ Registered lib request users s.world.users := by
  induction hs with
  | refl => exact ⟨hunique, fun id user hid ↦ .inl ⟨user, hid, rfl⟩⟩
  | move hreach _ hn ih => exact registered_next hreach hn ih.1 ih.2

/-- **Credentials are kept.** Any number of requests to the account views, in any interleaving, any of them
killed at any point, whatever the tokens are. From every state that they reach, every account keeps its
name, its address and its password for good, although whole rows are saved that have been read long before;
no two accounts have one name; and every account was there at the start, or carries what some registration
form says. -/
theorem credentials_kept (hunique : UniqueNames users)
    (hs : (accounts lib ι).Reach ok (startAccounts lib users broker request) s)
    (hs' : (accounts lib ι).Reach ok s s') :
    Keeps s.world.users s'.world.users ∧ UniqueNames s'.world.users ∧
      Registered lib request users s'.world.users :=
  ⟨keeps_of_reach hs hs', registered_of_reach hunique (hs.trans hs')⟩

end Runs

/-! ### Two activations -/

/-- User 5, who has long been there. -/
def oldHand : User :=
  { username := (TextColumn.store? 150 "wang".toList).getD .empty
    password := (TextColumn.store? 128 "hidden".toList).getD .empty
    email := (TextColumn.store? 254 "wang@shop.com".toList).getD .empty
    isActive := true }

/-- Somebody registers, and follows the link of the mail twice. -/
def twoClicks : Fin 3 → AccountRequest :=
  ![.regist 0 (formData [("user_name", "li"), ("pwd", "secret"), ("cpwd", "secret"),
      ("email", "li@shop.com"), ("allow", "on")]),
    .active 60 "6,0".toList, .active 61 "6,0".toList]

/-- The second click saves the row that it has read before the first one has saved its own. -/
theorem credentials_kept_twoClicks : ∃ s, (accounts unsigned (Fin 3)).perform
      (startAccounts unsigned ((∅ : AList fun _ : ℕ ↦ User).insert 5 oldHand) (fun _ ↦ true) twoClicks)
      (([0, 0, 0, 0, 1, 2, 1, 2] : List (Fin 3)).map .step) = some s ∧
    (s.world.users.lookup 6).map User.isActive = some true ∧
    Keeps ((∅ : AList fun _ : ℕ ↦ User).insert 5 oldHand) s.world.users ∧ UniqueNames s.world.users ∧
      Registered unsigned twoClicks ((∅ : AList fun _ : ℕ ↦ User).insert 5 oldHand) s.world.users := by
  have hrun : ((accounts unsigned (Fin 3)).perform
      (startAccounts unsigned ((∅ : AList fun _ : ℕ ↦ User).insert 5 oldHand) (fun _ ↦ true) twoClicks)
      (([0, 0, 0, 0, 1, 2, 1, 2] : List (Fin 3)).map .step)).map (fun s ↦
        (s.world.users.lookup 6).map User.isActive) = some (some true) := by rfl
  obtain ⟨s, hs, hactive⟩ := Option.map_eq_some_iff.1 hrun
  exact ⟨s, hs, hactive, credentials_kept (uniqueNames_insert_empty 5 oldHand) .refl
    ((accounts unsigned (Fin 3)).reach_of_perform hs)⟩

end DailyFresh
