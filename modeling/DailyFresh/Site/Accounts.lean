import DailyFresh.Interleave.Paths
import DailyFresh.Site.Services

/-!
# Accounts

`RegistView.post`, `ActiveView.get` and `LoginView.post`. They work on the table of users, the sessions and
the queue of the mail worker, and on nothing that the rest of the site writes, so they have a signature and a
machine of their own.

What they call of Django, itsdangerous and Python's Unicode tables is a parameter, `Library`: the site does
not contain that code. `User.objects.create_user` inserts an account that is active, as is Django's default;
`authenticate` asks the default backend, which accepts active accounts only. A token carries the id of an
account; it is signed, and a signature is good for an hour.

Every query is a transaction of its own. The username is unique; texts are compared exactly.
-/

namespace DailyFresh

open Python Store Interleave Program

/-- An account. -/
structure User where
  username : CharField 150
  password : CharField 128
  email : CharField 254
  isActive : Bool
  deriving DecidableEq

/-- Exceptions of `serialize.loads`. -/
inductive SignatureError where
  | signatureExpired
  | badSignature
  deriving DecidableEq

/-- What the views call outside the site. -/
structure Library where
  /-- `c.isalnum()`. -/
  isAlnum : Char → Bool
  /-- `User.normalize_username(username)`. -/
  normalizeUsername : Str → Str
  /-- `UserManager.normalize_email(email)`. -/
  normalizeEmail : Str → Str
  /-- `make_password(password)`. -/
  makePassword : Str → Str
  /-- `check_password(password, encoded)`. -/
  checkPassword : Str → Str → Bool
  /-- `Serialize(settings.SECRET_KEY, 3600).dumps({'confirm': id})`, at this time. -/
  dumps : ℕ → ℕ → Str
  /-- `Serialize(settings.SECRET_KEY, 3600).loads(token)['confirm']`, at this time. -/
  loads : Str → ℕ → Except SignatureError ℕ

/-! ### Commands -/

/-- The commands the account views send. -/
inductive AccountCmd where
  /-- `User.objects.get(username=username)`. -/
  | userNamed (username : Str)
  /-- The `INSERT` of `User.objects.create_user(...)`, with the values that are stored. -/
  | userCreate (username email password : Str)
  /-- `User.objects.get(id=id)`. -/
  | userGet (id : ℕ)
  /-- `user.save()`, all columns. -/
  | userSave (id : ℕ) (user : User)
  /-- `authenticate(username=username, password=password)`. -/
  | authenticate (username password : Str)
  /-- `login(request, user)`. -/
  | login (id : ℕ)
  /-- `send_register_active_email.delay(email, username, token)`. -/
  | delay (email username token : Str)
  deriving DecidableEq

/-- The answers to each command. -/
@[reducible] def AccountCmd.Resp : AccountCmd → Type
  | userNamed _ => Option (ℕ × User)
  | userCreate .. => Except DbError (ℕ × User)
  | userGet _ => Except DbError User
  | userSave .. => Unit
  | authenticate .. => Option (ℕ × User)
  | login _ => Unit
  | delay .. => Bool

/-- The signature of the account views. -/
abbrev AccountServices : Signature where
  Cmd := AccountCmd
  Resp := AccountCmd.Resp

/-- Send a command. -/
abbrev askAccounts (c : AccountServices.Cmd) : Program AccountServices (AccountServices.Resp c) :=
  Program.send c

/-- One command, sent by one request and answered. -/
structure AccountEvent (ι : Type) where
  process : ι
  cmd : AccountCmd
  resp : cmd.Resp

/-- Everything the account views share. -/
structure AccountWorld (ι : Type) where
  users : AList fun _ : ℕ ↦ User
  /-- The user of each login session. -/
  sessions : List ℕ
  /-- Whether the queue is going to accept a task. -/
  broker : ℕ → Bool
  /-- What has been sent and answered, newest first. -/
  history : List (AccountEvent ι)

namespace AccountWorld

variable {ι : Type} (w : AccountWorld ι)

/-- The account of this name, with its id. -/
def named (username : Str) : Option (ℕ × User) :=
  (w.users.entries.find? fun e ↦ e.2.username.val = username).map fun e ↦ (e.1, e.2)

/-- A command and its answer go down in the history. -/
def record (t : ι) (c : AccountCmd) (r : c.Resp) : AccountWorld ι :=
  { w with history := ⟨t, c, r⟩ :: w.history }

/-- What request `t` has sent, newest first. -/
def log [DecidableEq ι] (t : ι) : List (AccountEvent ι) := w.history.filter fun e ↦ e.process = t

end AccountWorld

/-- The row that `create_user` inserts. -/
def User.row? (username email password : Str) : Option User := do
  let username ← TextColumn.store? 150 username
  let password ← TextColumn.store? 128 password
  let email ← TextColumn.store? 254 email
  some { username, password, email, isActive := true }

/-- `authenticate`: the password is right and the account is active. -/
def AccountWorld.authenticated {ι : Type} (w : AccountWorld ι) (lib : Library)
    (username password : Str) : Option (ℕ × User) :=
  (w.named username).filter fun x ↦ lib.checkPassword password x.2.password.val && x.2.isActive

/-- What a command answers, and the world after it. -/
def AccountWorld.run {ι : Type} (lib : Library) (w : AccountWorld ι) :
    (c : AccountCmd) → c.Resp × AccountWorld ι
  | .userNamed username => (w.named username, w)
  | .userCreate username email password =>
    match User.row? username email password with
    | none => (.error .dataError, w)
    | some user =>
      match w.named username with
      | some _ => (.error .integrityError, w)
      | none =>
        (.ok (nextKey w.users, user), { w with users := w.users.insert (nextKey w.users) user })
  | .userGet id =>
    match w.users.lookup id with
    | none => (.error .doesNotExist, w)
    | some user => (.ok user, w)
  | .userSave id user => ((), { w with users := w.users.insert id user })
  | .authenticate username password => (w.authenticated lib username password, w)
  | .login id => ((), { w with sessions := id :: w.sessions })
  | .delay .. => (w.broker 0, { w with broker := fun i ↦ w.broker (i + 1) })

/-! ### The views -/

/-- What the views answer. -/
inductive AccountReply where
  /-- `render(request, 'register.html', {'errmsg': errmsg})`. -/
  | register (errmsg : String)
  /-- `redirect(reverse('goods:index'))`. -/
  | index
  /-- `HttpResponse('链接已过期')`. -/
  | expired
  /-- `redirect(reverse('user:login'))`. -/
  | toLogin
  /-- `render(request, 'login.html', {'errmsg': errmsg})`. -/
  | login (errmsg : String)
  /-- `redirect(next_url)`; the flag says whether the cookie `username` is set or deleted. -/
  | redirect (nextUrl : Str) (remember : Bool)
  /-- An exception, or the death of the request. -/
  | error
  deriving DecidableEq

namespace RegistView

/-- A letter of `[a-z]`. -/
def isLower (c : Char) : Bool := 'a' ≤ c && c ≤ 'z'

/-- A character of `[a-z0-9]`. -/
def isLowerOrDigit (c : Char) : Bool := isLower c || ('0' ≤ c && c ≤ '9')

/-- `re.match(r'^[a-z0-9][\w.\-]*@[a-z0-9\-]+(\.[a-z]{2,5}){1,2}$', email)`: the characters around the
only `@` are no other `@`, the groups are what stands between the dots of the domain, and `$` also matches
before a final newline. -/
def emailMatches (lib : Library) (email : Str) : Bool :=
  let text := if email.getLast? = some '\n' then email.dropLast else email
  match split '@' text with
  | [c :: rest, domain] =>
    isLowerOrDigit c && rest.all (fun c ↦ lib.isAlnum c || c = '_' || c = '.' || c = '-') &&
      match split '.' domain with
      | host :: groups =>
        host ≠ [] && host.all (fun c ↦ isLowerOrDigit c || c = '-') &&
          (groups.length = 1 || groups.length = 2) &&
          groups.all fun g ↦ g.all isLower && 2 ≤ g.length && g.length ≤ 5
      | [] => false
  | _ => false

/-- The registration of a new name, at this time: the account is created, made inactive, and its token is
sent to the mail worker. -/
def create (lib : Library) (now : ℕ) (username password email : Str) :
    Program AccountServices AccountReply := do
  match ← askAccounts (.userCreate (lib.normalizeUsername username) (lib.normalizeEmail email)
    (lib.makePassword password)) with
  | .error _ => pure .error
  | .ok (id, user) =>
    let _ ← askAccounts (.userSave id { user with isActive := false })
    let token := lib.dumps id now
    if ← askAccounts (.delay email username token) then pure .index else pure .error

/-- `RegistView.post`. An incomplete form renders the template `regsister.html`, which does not exist. -/
def post (lib : Library) (now : ℕ) (POST : Str → Option Str) : Program AccountServices AccountReply := do
  match nonempty (POST "user_name".toList), nonempty (POST "pwd".toList),
    nonempty (POST "cpwd".toList), nonempty (POST "email".toList) with
  | some username, some password, some repassword, some email =>
    if password ≠ repassword then pure (.register "两次密码不一致")
    else if emailMatches lib email = false then pure (.register "邮箱格式错误")
    else if POST "allow".toList ≠ some "on".toList then pure (.register "请同意协议")
    else
      match ← askAccounts (.userNamed username) with
      | some _ => pure (.register "用户名已存在")
      | none => create lib now username password email
  | _, _, _, _ => pure .error

end RegistView

/-- `ActiveView.get`, at this time; `token` is the rest of the path. -/
def ActiveView.get (lib : Library) (now : ℕ) (token : Str) : Program AccountServices AccountReply := do
  match lib.loads token now with
  | .error .signatureExpired => pure .expired
  | .error .badSignature => pure .error
  | .ok id =>
    match ← askAccounts (.userGet id) with
    | .error _ => pure .error
    | .ok user =>
      let _ ← askAccounts (.userSave id { user with isActive := true })
      pure .toLogin

/-- `LoginView.post`. -/
def LoginView.post (POST GET : Str → Option Str) : Program AccountServices AccountReply := do
  match nonempty (POST "username".toList), nonempty (POST "pwd".toList) with
  | some username, some password =>
    match ← askAccounts (.authenticate username password) with
    | none => pure (.login "账户密码不匹配")
    | some (id, user) =>
      if user.isActive then
        let _ ← askAccounts (.login id)
        pure (.redirect ((GET "next".toList).getD "goods:index".toList)
          (POST "remember".toList = some "on".toList))
      else pure (.login "账户未激活")
  | _, _ => pure (.login "数据不完整")

/-! ### The system -/

/-- The requests to the account views. -/
inductive AccountRequest where
  /-- `POST /user/register`, handled at the time `now`. -/
  | regist (now : ℕ) (POST : Str → Option Str)
  /-- `GET /user/active/<token>`, handled at the time `now`. -/
  | active (now : ℕ) (token : Str)
  /-- `POST /user/login`. -/
  | login (POST GET : Str → Option Str)

/-- The handler of a request. -/
def AccountRequest.handler (lib : Library) : AccountRequest → Program AccountServices AccountReply
  | regist now POST => RegistView.post lib now POST
  | active now token => ActiveView.get lib now token
  | login POST GET => LoginView.post POST GET

/-- The machine of the account views: every command is recorded, and a killed request leaves what it has
written. -/
def accounts (lib : Library) (ι : Type) : Machine AccountServices ι (AccountWorld ι) Unit AccountReply where
  exec t w _ c := some ((w.run lib c).1, (w.run lib c).2.record t c (w.run lib c).1, ())
  abort _ w _ := (w, ())
  crash := .error

/-- The account views about to handle the requests `request`; nobody has logged in. -/
def startAccounts {ι : Type} (lib : Library) (users : AList fun _ : ℕ ↦ User) (broker : ℕ → Bool)
    (request : ι → AccountRequest) : State AccountServices ι (AccountWorld ι) Unit AccountReply where
  world := { users, sessions := [], broker, history := [] }
  loc := fun _ ↦ ()
  prog := fun t ↦ (request t).handler lib

variable {ι : Type}

/-- The creation of an account fails, or adds an active account. -/
theorem AccountWorld.run_userCreate_cases (lib : Library) (w : AccountWorld ι)
    (username email password : Str) :
    (∃ e, w.run lib (.userCreate username email password) = (.error e, w)) ∨
      ∃ user, user.isActive = true ∧ w.run lib (.userCreate username email password) =
        (.ok (nextKey w.users, user), { w with users := w.users.insert (nextKey w.users) user }) := by
  rw [AccountWorld.run]
  rcases hrow : User.row? username email password with - | user
  · exact .inl ⟨_, rfl⟩
  rcases w.named username with - | taken
  · refine .inr ⟨user, ?_, rfl⟩
    simp only [User.row?, Option.bind_eq_bind, Option.bind_eq_some_iff] at hrow
    obtain ⟨_, -, _, -, _, -, hrow⟩ := hrow
    cases hrow
    rfl
  · exact .inl ⟨_, rfl⟩

theorem AccountWorld.run_userGet (lib : Library) (w : AccountWorld ι) (id : ℕ) :
    (w.run lib (.userGet id)).2 = w := by
  rw [AccountWorld.run]
  split
  · rfl
  · rfl

theorem AccountWorld.run_history (lib : Library) (w : AccountWorld ι) (c : AccountCmd) :
    (w.run lib c).2.history = w.history := by
  cases c with
  | userCreate username email password =>
    obtain ⟨e, h⟩ | ⟨user, -, h⟩ := w.run_userCreate_cases lib username email password
    · rw [h]
    · rw [h]
  | userGet id => rw [w.run_userGet]
  | _ => rfl

/-- Nothing but a login makes a session. -/
theorem AccountWorld.mem_run_sessions_iff {lib : Library} {w : AccountWorld ι} {c : AccountCmd} {id : ℕ} :
    id ∈ (w.run lib c).2.sessions ↔ c = .login id ∨ id ∈ w.sessions := by
  cases c with
  | userCreate username email password =>
    obtain ⟨e, h⟩ | ⟨user, -, h⟩ := w.run_userCreate_cases lib username email password
    · simp [h]
    · simp [h]
  | userGet id => simp [w.run_userGet]
  | login id' => simp [AccountWorld.run, eq_comm]
  | _ => simp [AccountWorld.run]

variable [DecidableEq ι]

/-- The machine keeps the log of every request. -/
theorem accounts_logs (lib : Library) :
    (accounts lib ι).Logs AccountEvent.mk fun t w ↦ w.log t where
  own := by
    intro t w l c r w' l' hx
    cases hx
    simp [AccountWorld.log, AccountWorld.record, AccountWorld.run_history]
  other := by
    intro t u w l c r w' l' hu hx
    cases hx
    simp [AccountWorld.log, AccountWorld.record, AccountWorld.run_history, hu.symm]
  abort _ := rfl

/-- A step executes the next command of the request and records it. -/
theorem accounts_step {lib : Library} {s s' : State AccountServices ι (AccountWorld ι) Unit AccountReply}
    {t : ι} (h : (accounts lib ι).next s (.step t) = some s') :
    ∃ c, (s.prog t).next? = some c ∧
      s'.world = (s.world.run lib c).2.record t c (s.world.run lib c).1 := by
  obtain ⟨c, r, w, l, p, hc, hx, rfl⟩ := (accounts lib ι).next_step_exec h
  cases hx
  exact ⟨c, hc, rfl⟩

end DailyFresh
