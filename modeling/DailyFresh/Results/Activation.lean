import DailyFresh.Results.Stock
import DailyFresh.Site.Accounts
import Mathlib.Data.List.Infix

/-!
# Login before activation

`RegistView` creates an account that is active, and makes it inactive with a second save. Between the two
saves the account can be used: whoever knows the password can log in, and if the request dies there, the
account stays active (`early_login`).

`only_activated_iff` is exact, in every reachable state: the accounts that are active or have a session are
activated ones if and only if, for every account that is not activated, the second save has been executed,
and nobody who was authenticated before it has gone on to log in. The invariant (`AccountsKept`) follows the
rows; the tokens of the requests are assumed to be unforged.
-/

namespace DailyFresh

open Python Store Interleave

variable {ι : Type}

/-! ### What has been sent -/

/-- The account that a command has created. -/
def AccountEvent.created : AccountEvent ι → Option ℕ
  | ⟨_, .userCreate .., .ok (id, _)⟩ => some id
  | _ => none

/-- The account that a command has saved. -/
def AccountEvent.saved : AccountEvent ι → Option ℕ
  | ⟨_, .userSave id _, _⟩ => some id
  | _ => none

/-- The token that a command has handed to the mail worker. -/
def AccountEvent.mailed : AccountEvent ι → Option Str
  | ⟨_, .delay _ _ token, _⟩ => some token
  | _ => none

/-- The account that a command has authenticated. -/
def AccountEvent.authenticated : AccountEvent ι → Option ℕ
  | ⟨_, .authenticate .., some (id, _)⟩ => some id
  | _ => none

/-- The token has been issued for this account: by the registration that created it. -/
def Issued (es : List (AccountEvent ι)) (token : Str) (id : ℕ) : Prop :=
  ∃ e ∈ es, e.created = some id ∧ ∃ e' ∈ es, e'.process = e.process ∧ e'.mailed = some token

/-- Request `t` has executed a save. -/
def HasSaved (es : List (AccountEvent ι)) (t : ι) : Prop :=
  ∃ e ∈ es, e.process = t ∧ e.saved.isSome = true

/-- An `ActiveView` request with a valid token that was issued for this account has been handled. -/
def Activated (lib : Library) (request : ι → AccountRequest) (es : List (AccountEvent ι)) (id : ℕ) : Prop :=
  ∃ e ∈ es, e.saved = some id ∧
    match request e.process with
    | .active now token => lib.loads token now = .ok id ∧ Issued es token id
    | _ => False

/-- Somebody who was authenticated as this account, before request `t` had executed a save, has gone on to
log in. -/
def EarlyLogin (es : List (AccountEvent ι)) (t : ι) (id : ℕ) : Prop :=
  ∃ l ∈ es.tails, ∃ e ∈ l.head?, e.authenticated = some id ∧ ¬ HasSaved l.tail t ∧
    ∃ e' ∈ es, e'.process = e.process ∧ e'.cmd = .login id

section Decidable

variable [DecidableEq ι]

instance (es : List (AccountEvent ι)) (token : Str) (id : ℕ) : Decidable (Issued es token id) :=
  inferInstanceAs (Decidable (∃ e ∈ es, _ ∧ ∃ e' ∈ es, _))

instance (es : List (AccountEvent ι)) (t : ι) : Decidable (HasSaved es t) :=
  inferInstanceAs (Decidable (∃ e ∈ es, _))

instance (lib : Library) (request : ι → AccountRequest) (es : List (AccountEvent ι)) (id : ℕ) :
    Decidable (Activated lib request es id) := by
  have : ∀ e : AccountEvent ι, Decidable (match request e.process with
      | .active now token => lib.loads token now = .ok id ∧ Issued es token id
      | _ => False) := by
    intro e
    split <;> infer_instance
  exact inferInstanceAs (Decidable (∃ e ∈ es, _ ∧ _))

instance (es : List (AccountEvent ι)) (t : ι) (id : ℕ) : Decidable (EarlyLogin es t id) :=
  inferInstanceAs (Decidable (∃ l ∈ es.tails, ∃ e ∈ l.head?, _ ∧ _ ∧ ∃ e' ∈ es, _))

end Decidable

/-- **No login before activation**: an account that registration has created is active or has a session only
if it has been activated. -/
def OnlyActivated (lib : Library) (request : ι → AccountRequest) (w : AccountWorld ι) : Prop :=
  ∀ e ∈ w.history, ∀ id ∈ e.created,
    ((∃ user ∈ w.users.lookup id, user.isActive = true) ∨ id ∈ w.sessions) →
      Activated lib request w.history id

/-- Every account that is not activated has been made inactive, and nobody who was authenticated before has
gone on to log in. -/
def ShutInTime (lib : Library) (request : ι → AccountRequest) (w : AccountWorld ι) : Prop :=
  ∀ e ∈ w.history, ∀ id ∈ e.created, Activated lib request w.history id ∨
    HasSaved w.history e.process ∧ ¬ EarlyLogin w.history e.process id

/-- Tokens cannot be forged: an `ActiveView` request whose token is valid for an account goes on only after the
token has been issued for it. -/
def Unforged (lib : Library) (request : ι → AccountRequest)
    (s : State AccountServices ι (AccountWorld ι) Unit AccountReply) : Move ι → Prop
  | .kill _ => True
  | .step t =>
    match request t with
    | .active now token => ∀ id ∈ (lib.loads token now).toOption, Issued s.world.history token id
    | _ => True

section Decidable

variable [DecidableEq ι] (lib : Library) (request : ι → AccountRequest)

instance (w : AccountWorld ι) : Decidable (OnlyActivated lib request w) :=
  inferInstanceAs (Decidable (∀ e ∈ w.history, ∀ id ∈ e.created, _ → _))

instance (w : AccountWorld ι) : Decidable (ShutInTime lib request w) :=
  inferInstanceAs (Decidable (∀ e ∈ w.history, ∀ id ∈ e.created, _))

instance (s : State AccountServices ι (AccountWorld ι) Unit AccountReply) :
    DecidablePred (Unforged lib request s)
  | .kill _ => isTrue trivial
  | .step t => by
    show Decidable (match request t with
      | .active now token => ∀ id ∈ (lib.loads token now).toOption, _
      | _ => True)
    split <;> infer_instance

end Decidable

/-! ### Histories grow -/

section Mono

variable {lib : Library} {request : ι → AccountRequest} {es es' : List (AccountEvent ι)} {id : ℕ}

theorem Issued.mono {token : Str} (h : Issued es token id) (hs : es <:+ es') : Issued es' token id := by
  obtain ⟨e, he, hcreated, e', he', hrest⟩ := h
  exact ⟨e, hs.subset he, hcreated, e', hs.subset he', hrest⟩

theorem HasSaved.mono {t : ι} (h : HasSaved es t) (hs : es <:+ es') : HasSaved es' t := by
  obtain ⟨e, he, hrest⟩ := h
  exact ⟨e, hs.subset he, hrest⟩

theorem Activated.mono (h : Activated lib request es id) (hs : es <:+ es') :
    Activated lib request es' id := by
  obtain ⟨e, he, hsaved, hrequest⟩ := h
  refine ⟨e, hs.subset he, hsaved, ?_⟩
  split at hrequest
  · rename_i now token heq
    exact ⟨hrequest.1, hrequest.2.mono hs⟩
  · exact hrequest.elim

/-- A command that saves nothing leaves who has saved. -/
theorem hasSaved_cons_iff {e : AccountEvent ι} (he : e.saved = none) {t : ι} :
    HasSaved (e :: es) t ↔ HasSaved es t := by
  simp [HasSaved, he]

theorem hasSaved_cons_of_ne {e : AccountEvent ι} {t : ι} (he : e.process ≠ t) :
    HasSaved (e :: es) t ↔ HasSaved es t := by
  simp [HasSaved, he]

end Mono

/-! ### What a request may send -/

/-- What request `t` may send, given what it has sent: only a registration creates an account, once and before
it saves; it saves the account it has created, inactive, and once; `ActiveView` saves the account of its token;
and who logs in has been authenticated. -/
def Sends (lib : Library) (r : AccountRequest) (es : List (AccountEvent ι)) : AccountCmd → Prop
  | .userCreate .. => (∃ now POST, r = .regist now POST) ∧ ∀ e ∈ es, e.created = none ∧ e.saved = none
  | .userSave id user =>
    ((∃ now POST, r = .regist now POST) ∧ user.isActive = false ∧ ∃ e ∈ es, e.created = some id) ∨
      ∃ now token, r = .active now token ∧ lib.loads token now = .ok id
  | .login id => ∃ e ∈ es, e.authenticated = some id
  | _ => True

/-- The request sends what it may send. -/
def SendsNext (lib : Library) (r : AccountRequest) (es : List (AccountEvent ι))
    (p : Program AccountServices AccountReply) : Prop :=
  ∀ c, p.next? = some c → Sends lib r es c

section Paths

variable {lib : Library} {t : ι} {r : AccountRequest} {es : List (AccountEvent ι)}

theorem sendsNext_ret {reply : AccountReply} :
    Throughout (AccountEvent.mk t) (SendsNext lib r) (.ret reply) es := fun _ h ↦ by cases h

theorem sendsNext_ask {c : AccountCmd} {f : c.Resp → Program AccountServices AccountReply}
    (hc : Sends lib r es c)
    (h : ∀ a, Throughout (AccountEvent.mk t) (SendsNext lib r) (f a) (⟨t, c, a⟩ :: es)) :
    Throughout (AccountEvent.mk t) (SendsNext lib r) (askAccounts c >>= f) es :=
  ⟨fun _ hc' ↦ Option.some.inj hc' ▸ hc, h⟩

theorem sendsNext_regist (now : ℕ) (POST : Str → Option Str) :
    Throughout (AccountEvent.mk t) (SendsNext lib (.regist now POST)) (RegistView.post lib now POST) [] := by
  rw [RegistView.post]
  split
  · rename_i username password repassword email _ _ _ _
    split
    · exact sendsNext_ret
    split
    · exact sendsNext_ret
    split
    · exact sendsNext_ret
    refine sendsNext_ask trivial fun found ↦ ?_
    rcases found with - | x
    · refine sendsNext_ask ⟨⟨now, POST, rfl⟩, fun e he ↦ ?_⟩ fun created ↦ ?_
      · obtain rfl := List.mem_singleton.1 he
        exact ⟨rfl, rfl⟩
      rcases created with e | ⟨id, user⟩
      · exact sendsNext_ret
      refine sendsNext_ask (.inl ⟨⟨now, POST, rfl⟩, rfl, _, List.mem_cons_self, rfl⟩) fun _ ↦ ?_
      refine sendsNext_ask trivial fun sent ↦ ?_
      split
      · exact sendsNext_ret
      · exact sendsNext_ret
    · exact sendsNext_ret
  · exact sendsNext_ret

theorem sendsNext_active (now : ℕ) (token : Str) :
    Throughout (AccountEvent.mk t) (SendsNext lib (.active now token)) (ActiveView.get lib now token) [] := by
  rw [ActiveView.get]
  rcases hloads : lib.loads token now with e | id
  · rcases e with - | -
    · exact sendsNext_ret
    · exact sendsNext_ret
  · refine sendsNext_ask trivial fun found ↦ ?_
    rcases found with e | user
    · exact sendsNext_ret
    exact sendsNext_ask (.inr ⟨now, token, rfl, hloads⟩) fun _ ↦ sendsNext_ret

theorem sendsNext_login (POST GET : Str → Option Str) :
    Throughout (AccountEvent.mk t) (SendsNext lib (.login POST GET)) (LoginView.post POST GET) [] := by
  rw [LoginView.post]
  split
  · refine sendsNext_ask trivial fun found ↦ ?_
    rcases found with - | ⟨id, user⟩
    · exact sendsNext_ret
    dsimp only
    split
    · exact sendsNext_ask ⟨_, List.mem_cons_self, rfl⟩ fun _ ↦ sendsNext_ret
    · exact sendsNext_ret
  · exact sendsNext_ret

/-- **The paths of the account views.** -/
theorem sendsNext_handler (r : AccountRequest) :
    Throughout (AccountEvent.mk t) (SendsNext lib r) (r.handler lib) [] := by
  rcases r with ⟨now, POST⟩ | ⟨now, token⟩ | ⟨POST, GET⟩
  · exact sendsNext_regist now POST
  · exact sendsNext_active now token
  · exact sendsNext_login POST GET

end Paths

/-! ### The accounts -/

section World

variable {lib : Library} {w : AccountWorld ι} {username password : Str} {id : ℕ} {user : User}

theorem AccountWorld.lookup_of_named (h : w.named username = some (id, user)) :
    w.users.lookup id = some user := by
  obtain ⟨e, he, heq⟩ := Option.map_eq_some_iff.1 h
  obtain ⟨rfl, rfl⟩ := Prod.mk.inj heq
  exact AList.mem_lookup_iff.2 (List.mem_of_find?_eq_some he)

/-- Who is authenticated has an account, and it is active. -/
theorem AccountWorld.lookup_of_authenticated (h : w.authenticated lib username password = some (id, user)) :
    w.users.lookup id = some user ∧ user.isActive = true := by
  obtain ⟨hnamed, hright⟩ := Option.filter_eq_some_iff.1 h
  exact ⟨AccountWorld.lookup_of_named hnamed, (Bool.and_eq_true_iff.1 hright).2⟩

end World

/-- What is known of the accounts that registrations have created. -/
structure AccountsKept (lib : Library) (request : ι → AccountRequest) (w : AccountWorld ι) : Prop where
  registered : ∀ e ∈ w.history, ∀ id ∈ e.created, ∃ now POST, request e.process = .regist now POST
  /-- A registration creates one account, and an account is created once. -/
  unique : ∀ e ∈ w.history, ∀ id ∈ e.created, ∀ e' ∈ w.history, ∀ id' ∈ e'.created,
    (id = id' ↔ e.process = e'.process)
  /-- An account that is not activated is active until its registration has saved it. -/
  row : ∀ e ∈ w.history, ∀ id ∈ e.created, ∃ user ∈ w.users.lookup id,
    ¬ Activated lib request w.history id → (user.isActive = true ↔ ¬ HasSaved w.history e.process)
  /-- Who was authenticated as an account that is not activated, was so before it was saved. -/
  seen : ∀ l ∈ w.history.tails, ∀ a ∈ l.head?, ∀ e ∈ w.history, ∀ id ∈ e.created,
    a.authenticated = some id → HasSaved l.tail e.process → Activated lib request l.tail id

section Step

variable {lib : Library} {request : ι → AccountRequest} {w w' : AccountWorld ι} {e₀ : AccountEvent ι}

theorem mem_tails_cons_iff {es l : List (AccountEvent ι)} :
    l ∈ (e₀ :: es).tails ↔ l = e₀ :: es ∨ l ∈ es.tails := by
  rw [List.mem_tails, List.mem_tails, List.suffix_cons_iff]

/-- Who is authenticated now, and was created by a registration that has saved it, is activated. -/
theorem AccountsKept.activated_of_saved (h : AccountsKept lib request w) {username password : Str} {id : ℕ}
    {user : User} (hauth : w.authenticated lib username password = some (id, user)) {e : AccountEvent ι}
    (he : e ∈ w.history) (hid : id ∈ e.created) (hsaved : HasSaved w.history e.process) :
    Activated lib request w.history id := by
  by_contra hnot
  obtain ⟨hlookup, hactive⟩ := AccountWorld.lookup_of_authenticated hauth
  obtain ⟨user', hlookup', hiff⟩ := h.row e he id hid
  obtain rfl := Option.some.inj (hlookup.symm.trans hlookup')
  exact (hiff hnot).1 hactive hsaved

/-- Who was created before or now, if nobody is now, was created before. -/
theorem mem_of_created (hhistory : w'.history = e₀ :: w.history) (hcreated : e₀.created = none) :
    ∀ e ∈ w'.history, ∀ id ∈ e.created, e ∈ w.history := by
  intro e he id hid
  rw [hhistory] at he
  rcases List.mem_cons.1 he with rfl | he
  · rw [hcreated] at hid
    cases hid
  · exact he

/-- A command that creates and saves no account. -/
theorem AccountsKept.of_read (h : AccountsKept lib request w) (hhistory : w'.history = e₀ :: w.history)
    (husers : w'.users = w.users) (hcreated : e₀.created = none) (hsaved : e₀.saved = none)
    (hauth : ∀ e ∈ w.history, ∀ id ∈ e.created, e₀.authenticated = some id → HasSaved w.history e.process →
      Activated lib request w.history id) : AccountsKept lib request w' := by
  have hmem := mem_of_created hhistory hcreated
  have hsuffix : w.history <:+ w'.history := hhistory ▸ List.suffix_cons _ _
  refine ⟨fun e he id hid ↦ h.registered e (hmem e he id hid) id hid, fun e he id hid e' he' id' hid' ↦
    h.unique e (hmem e he id hid) id hid e' (hmem e' he' id' hid') id' hid', fun e he id hid ↦ ?_,
    fun l hl a ha e he id hid hname ↦ ?_⟩
  · obtain ⟨user, hlookup, hiff⟩ := h.row e (hmem e he id hid) id hid
    refine ⟨user, husers ▸ hlookup, fun hnot ↦ ?_⟩
    rw [hhistory, hasSaved_cons_iff hsaved]
    exact hiff fun hactivated ↦ hnot (hactivated.mono hsuffix)
  · rw [hhistory, mem_tails_cons_iff] at hl
    rcases hl with rfl | hl
    · obtain rfl := Option.some.inj ha
      exact hauth e (hmem e he id hid) id hid hname
    · exact h.seen l hl a ha e (hmem e he id hid) id hid hname

/-- The creation of an account, by a registration that has neither created nor saved one. -/
theorem AccountsKept.of_create (h : AccountsKept lib request w) (hhistory : w'.history = e₀ :: w.history)
    {user : User} (hactive : user.isActive = true)
    (husers : w'.users = w.users.insert (nextKey w.users) user)
    (hcreated : e₀.created = some (nextKey w.users)) (hsaved : e₀.saved = none)
    (hauth : e₀.authenticated = none) (hrequest : ∃ now POST, request e₀.process = .regist now POST)
    (hnone : ∀ e ∈ w.history, e.process = e₀.process → e.created = none ∧ e.saved = none) :
    AccountsKept lib request w' := by
  have hsuffix : w.history <:+ w'.history := hhistory ▸ List.suffix_cons _ _
  have hcases : ∀ e ∈ w'.history, ∀ id ∈ e.created, (e = e₀ ∧ id = nextKey w.users) ∨ e ∈ w.history := by
    intro e he id hid
    rw [hhistory] at he
    rcases List.mem_cons.1 he with rfl | he
    · exact .inl ⟨rfl, (Option.some.inj (hcreated.symm.trans hid)).symm⟩
    · exact .inr he
  -- the new number is nobody's
  have hfresh : ∀ e ∈ w.history, ∀ id ∈ e.created, id ≠ nextKey w.users := by
    rintro e he id hid rfl
    obtain ⟨user, hlookup, -⟩ := h.row e he _ hid
    exact absurd ((lookup_nextKey w.users).symm.trans hlookup) (by simp)
  have hother : ∀ e ∈ w.history, ∀ id ∈ e.created, e.process ≠ e₀.process := by
    intro e he id hid heq
    rw [(hnone e he heq).1] at hid
    cases hid
  have hunsaved : ¬ HasSaved w.history e₀.process := by
    rintro ⟨e, he, heq, hsome⟩
    rw [(hnone e he heq).2] at hsome
    cases hsome
  refine ⟨fun e he id hid ↦ ?_, fun e he id hid e' he' id' hid' ↦ ?_, fun e he id hid ↦ ?_,
    fun l hl a ha e he id hid hname ↦ ?_⟩
  · rcases hcases e he id hid with ⟨rfl, -⟩ | he
    · exact hrequest
    · exact h.registered e he id hid
  · rcases hcases e he id hid with ⟨rfl, rfl⟩ | he
    · rcases hcases e' he' id' hid' with ⟨rfl, rfl⟩ | he'
      · exact iff_of_true rfl rfl
      · exact iff_of_false (hfresh e' he' id' hid').symm (hother e' he' id' hid').symm
    · rcases hcases e' he' id' hid' with ⟨rfl, rfl⟩ | he'
      · exact iff_of_false (hfresh e he id hid) (hother e he id hid)
      · exact h.unique e he id hid e' he' id' hid'
  · rw [husers, hhistory, hasSaved_cons_iff hsaved]
    rcases hcases e he id hid with ⟨rfl, rfl⟩ | he
    · -- the new account is active, and its registration has not saved it yet
      exact ⟨user, AList.lookup_insert _, fun _ ↦ iff_of_true hactive hunsaved⟩
    · obtain ⟨user', hlookup, hiff⟩ := h.row e he id hid
      refine ⟨user', (AList.lookup_insert_ne (hfresh e he id hid)).trans hlookup, fun hnot ↦ hiff ?_⟩
      exact fun hactivated ↦ hnot (hactivated.mono (List.suffix_cons _ _))
  · rw [hhistory, mem_tails_cons_iff] at hl
    rcases hl with rfl | hl
    · obtain rfl := Option.some.inj ha
      exact absurd (hauth.symm.trans hname) (by simp)
    · rcases hcases e he id hid with ⟨rfl, rfl⟩ | he
      · refine fun hearly ↦ absurd (hearly.mono ?_) hunsaved
        exact (List.tail_suffix l).trans ((List.mem_tails l _).1 hl)
      · exact h.seen l hl a ha e he id hid hname

/-- A save, of an inactive account by its registration, or with a token. -/
theorem AccountsKept.of_save (h : AccountsKept lib request w) (hhistory : w'.history = e₀ :: w.history)
    {user : User} {id₀ : ℕ} (husers : w'.users = w.users.insert id₀ user) (hcreated : e₀.created = none)
    (hsaved : e₀.saved = some id₀) (hauth : e₀.authenticated = none)
    (hwho : (user.isActive = false ∧ ∃ e ∈ w.history, e.process = e₀.process ∧ e.created = some id₀) ∨
      (∀ e ∈ w.history, ∀ id ∈ e.created, e.process ≠ e₀.process) ∧
        Activated lib request w'.history id₀) : AccountsKept lib request w' := by
  have hsuffix : w.history <:+ w'.history := hhistory ▸ List.suffix_cons _ _
  have hmem := mem_of_created hhistory hcreated
  refine ⟨fun e he id hid ↦ h.registered e (hmem e he id hid) id hid, fun e he id hid e' he' id' hid' ↦
    h.unique e (hmem e he id hid) id hid e' (hmem e' he' id' hid') id' hid', fun e he id hid ↦ ?_,
    fun l hl a ha e he id hid hname ↦ ?_⟩
  · have he := hmem e he id hid
    rw [husers]
    by_cases heq : id = id₀
    · subst heq
      refine ⟨user, AList.lookup_insert _, fun hnot ↦ ?_⟩
      rcases hwho with ⟨hinactive, e₁, he₁, hprocess, hid₁⟩ | ⟨-, hactivated⟩
      · -- the registration saves its own account, as an inactive one
        have hsame := (h.unique e he id hid e₁ he₁ id hid₁).1 rfl
        have hdone : HasSaved w'.history e.process :=
          ⟨e₀, hhistory ▸ List.mem_cons_self, (hsame.trans hprocess).symm, by rw [hsaved]; rfl⟩
        exact iff_of_false (by simp [hinactive]) (not_not_intro hdone)
      · exact absurd hactivated hnot
    · obtain ⟨user', hlookup, hiff⟩ := h.row e he id hid
      refine ⟨user', (AList.lookup_insert_ne heq).trans hlookup, fun hnot ↦ ?_⟩
      -- the account is another one, so its registration is another request
      have hother : e₀.process ≠ e.process := by
        rcases hwho with ⟨-, e₁, he₁, hprocess, hid₁⟩ | ⟨hnobody, -⟩
        · exact fun hsame ↦ heq ((h.unique e he id hid e₁ he₁ id₀ hid₁).2 (hsame.symm.trans hprocess.symm))
        · exact (hnobody e he id hid).symm
      rw [hhistory, hasSaved_cons_of_ne hother]
      exact hiff fun hactivated ↦ hnot (hactivated.mono hsuffix)
  · rw [hhistory, mem_tails_cons_iff] at hl
    rcases hl with rfl | hl
    · obtain rfl := Option.some.inj ha
      exact absurd (hauth.symm.trans hname) (by simp)
    · exact h.seen l hl a ha e (hmem e he id hid) id hid hname

end Step

section Run

variable [DecidableEq ι] {lib : Library} {request : ι → AccountRequest}
  {s s' : State AccountServices ι (AccountWorld ι) Unit AccountReply} {m : Move ι}

omit [DecidableEq ι] in
/-- A request with a valid token goes on only after the token has been issued. -/
theorem Unforged.issued {t : ι} (h : Unforged lib request s (.step t)) {now : ℕ} {token : Str} {id : ℕ}
    (hrequest : request t = .active now token) (hloads : lib.loads token now = .ok id) :
    Issued s.world.history token id := by
  have h' : (match request t with
    | .active now token => ∀ id ∈ (lib.loads token now).toOption, Issued s.world.history token id
    | _ => True) := h
  rw [hrequest] at h'
  exact h' id (by rw [hloads]; rfl)

/-- **One move keeps the accounts.** -/
theorem AccountsKept.next (h : AccountsKept lib request s.world)
    (hsends : ∀ t c, (s.prog t).next? = some c → Sends lib (request t) (s.world.log t) c)
    (hm : Unforged lib request s m) (hn : (accounts lib ι).next s m = some s') :
    AccountsKept lib request s'.world := by
  cases m with
  | kill t =>
    obtain ⟨-, rfl⟩ := (accounts lib ι).next_kill_cases hn
    exact h
  | step t =>
    obtain ⟨c, hc, hworld⟩ := accounts_step hn
    have hsend := hsends t c hc
    have hlog : ∀ e, e ∈ s.world.history → e.process = t → e ∈ s.world.log t :=
      fun e he hprocess ↦ List.mem_filter.2 ⟨he, decide_eq_true hprocess⟩
    have hhistory : s'.world.history = ⟨t, c, (s.world.run lib c).1⟩ :: s.world.history := by
      rw [hworld, AccountWorld.record, AccountWorld.run_history]
    cases c with
    | userCreate username email password =>
      obtain ⟨hregist, hnone⟩ := hsend
      obtain ⟨e, hrun⟩ | ⟨user, hactive, hrun⟩ :=
        s.world.run_userCreate_cases lib username email password
      · rw [hrun] at hworld hhistory
        exact h.of_read hhistory (by rw [hworld]; rfl) rfl rfl fun _ _ _ _ hname ↦ by cases hname
      · rw [hrun] at hworld hhistory
        exact h.of_create hhistory hactive (by rw [hworld]; rfl) rfl rfl rfl hregist
          fun e he hprocess ↦ hnone e (hlog e he hprocess)
    | userSave id user =>
      refine h.of_save hhistory (by rw [hworld]; rfl) rfl rfl rfl ?_
      rcases hsend with ⟨-, hinactive, e, he, hid⟩ | ⟨now, token, hrequest, hloads⟩
      · obtain ⟨hmem, hprocess⟩ := List.mem_filter.1 he
        exact .inl ⟨hinactive, e, hmem, of_decide_eq_true hprocess, hid⟩
      · right
        refine ⟨fun e he id' hid' hprocess ↦ ?_, ?_⟩
        · -- an activation creates no account
          obtain ⟨_, _, hregist⟩ := h.registered e he id' hid'
          have hprocess' : e.process = t := hprocess
          cases hregist.symm.trans ((congrArg request hprocess').trans hrequest)
        · have hissued := hm.issued hrequest hloads
          refine ⟨_, hhistory ▸ List.mem_cons_self, rfl, ?_⟩
          show (match request t with
            | .active now token => lib.loads token now = .ok id ∧ Issued s'.world.history token id
            | _ => False)
          rw [hrequest, hhistory]
          exact ⟨hloads, hissued.mono (List.suffix_cons _ _)⟩
    | authenticate username password =>
      refine h.of_read hhistory (by rw [hworld]; rfl) rfl rfl fun e he id hid hname hsaved ↦ ?_
      rcases hauth : s.world.authenticated lib username password with - | ⟨id', user⟩
      · rw [AccountWorld.run, hauth] at hname
        cases hname
      · rw [AccountWorld.run, hauth] at hname
        obtain rfl : id' = id := Option.some.inj hname
        exact h.activated_of_saved hauth he hid hsaved
    | userGet id =>
      refine h.of_read hhistory (by rw [hworld, s.world.run_userGet]; rfl) rfl rfl fun _ _ _ _ hname ↦ ?_
      cases hname
    | _ =>
      exact h.of_read hhistory (by rw [hworld]; rfl) rfl rfl fun _ _ _ _ hname ↦ by cases hname

variable {users : AList fun _ : ℕ ↦ User} {broker : ℕ → Bool}

/-- What a request that has not been killed is about to send. -/
theorem sends_of_reach {ok : State AccountServices ι (AccountWorld ι) Unit AccountReply → Move ι → Prop}
    (hs : (accounts lib ι).Reach ok (startAccounts lib users broker request) s) (t : ι) (c : AccountCmd)
    (hc : (s.prog t).next? = some c) : Sends lib (request t) (s.world.log t) c :=
  (Throughout.of_reach_of_next (accounts_logs lib) (sendsNext_handler (request t)) hs hc).now c hc

theorem accountsKept_of_reach
    (hs : (accounts lib ι).Reach (Unforged lib request) (startAccounts lib users broker request) s) :
    AccountsKept lib request s.world := by
  induction hs with
  | refl =>
    refine ⟨fun e he ↦ ?_, fun e he ↦ ?_, fun e he ↦ ?_, fun l hl a ha e he ↦ ?_⟩
    all_goals cases he
  | move hs hm hn ih => exact ih.next (sends_of_reach hs) hm hn

/-- The sessions are those of the logins that have been executed. -/
theorem mem_sessions_iff {ok : State AccountServices ι (AccountWorld ι) Unit AccountReply → Move ι → Prop}
    (hs : (accounts lib ι).Reach ok (startAccounts lib users broker request) s) {id : ℕ} :
    id ∈ s.world.sessions ↔ ∃ e ∈ s.world.history, e.cmd = .login id := by
  induction hs with
  | refl => exact iff_of_false (by rintro ⟨⟩) fun ⟨e, he, _⟩ ↦ by cases he
  | @move s s' m hs hm hn ih =>
    cases m with
    | kill t =>
      obtain ⟨-, rfl⟩ := (accounts lib ι).next_kill_cases hn
      exact ih
    | step t =>
      obtain ⟨c, hc, hworld⟩ := accounts_step hn
      have hhistory : s'.world.history = ⟨t, c, (s.world.run lib c).1⟩ :: s.world.history := by
        rw [hworld, AccountWorld.record, AccountWorld.run_history]
      have hsessions : id ∈ s'.world.sessions ↔ c = .login id ∨ id ∈ s.world.sessions := by
        rw [hworld]
        exact AccountWorld.mem_run_sessions_iff
      rw [hsessions, hhistory, ih]
      constructor
      · rintro (rfl | ⟨e, he, hcmd⟩)
        · exact ⟨_, List.mem_cons_self, rfl⟩
        · exact ⟨e, List.mem_cons_of_mem _ he, hcmd⟩
      · rintro ⟨e, he, hcmd⟩
        rcases List.mem_cons.1 he with rfl | he
        · exact .inl hcmd
        · exact .inr ⟨e, he, hcmd⟩

/-- Who has logged in has been authenticated. -/
theorem authenticated_of_login
    (hs : (accounts lib ι).Reach (Unforged lib request) (startAccounts lib users broker request) s)
    {e : AccountEvent ι} (he : e ∈ s.world.history) {id : ℕ} (hcmd : e.cmd = .login id) :
    ∃ a ∈ s.world.history, a.process = e.process ∧ a.authenticated = some id := by
  induction hs with
  | refl => cases he
  | @move s s' m hs hm hn ih =>
    cases m with
    | kill t =>
      obtain ⟨-, rfl⟩ := (accounts lib ι).next_kill_cases hn
      exact ih he
    | step t =>
      obtain ⟨c, hc, hworld⟩ := accounts_step hn
      have hhistory : s'.world.history = ⟨t, c, (s.world.run lib c).1⟩ :: s.world.history := by
        rw [hworld, AccountWorld.record, AccountWorld.run_history]
      rw [hhistory] at he ⊢
      rcases List.mem_cons.1 he with rfl | he
      · obtain rfl : c = .login id := hcmd
        obtain ⟨a, ha, hname⟩ := sends_of_reach hs t _ hc
        obtain ⟨hmem, hprocess⟩ := List.mem_filter.1 ha
        exact ⟨a, List.mem_cons_of_mem _ hmem, of_decide_eq_true hprocess, hname⟩
      · obtain ⟨a, ha, hrest⟩ := ih he
        exact ⟨a, List.mem_cons_of_mem _ ha, hrest⟩

/-- **No login before activation, exactly.** Any number of requests to the account views, in any interleaving,
any of them killed at any point, or failing where the mail worker's queue does not answer. In every state
that they reach, the accounts that registration has created are active or have a session only if they are
activated, if and only if every account that is not activated has been shut in time. -/
theorem only_activated_iff
    (hs : (accounts lib ι).Reach (Unforged lib request) (startAccounts lib users broker request) s) :
    OnlyActivated lib request s.world ↔ ShutInTime lib request s.world := by
  have h := accountsKept_of_reach hs
  constructor
  · intro honly e he id hid
    by_cases hactivated : Activated lib request s.world.history id
    · exact .inl hactivated
    · right
      obtain ⟨user, hlookup, hiff⟩ := h.row e he id hid
      have hsaved : HasSaved s.world.history e.process := by
        by_contra hnot
        exact hactivated (honly e he id hid (.inl ⟨user, hlookup, (hiff hactivated).2 hnot⟩))
      refine ⟨hsaved, fun hearly ↦ hactivated ?_⟩
      obtain ⟨l, -, a, -, -, -, e', he', -, hcmd⟩ := hearly
      exact honly e he id hid (.inr ((mem_sessions_iff hs).2 ⟨e', he', hcmd⟩))
  · intro hshut e he id hid hused
    rcases hshut e he id hid with hactivated | ⟨hsaved, hlate⟩
    · exact hactivated
    by_contra hnot
    rcases hused with ⟨user, hlookup, hactive⟩ | hsession
    · obtain ⟨user', hlookup', hiff⟩ := h.row e he id hid
      obtain rfl := Option.some.inj (hlookup.symm.trans hlookup')
      exact (hiff hnot).1 hactive hsaved
    · obtain ⟨e', he', hcmd⟩ := (mem_sessions_iff hs).1 hsession
      obtain ⟨a, ha, hprocess, hname⟩ := authenticated_of_login hs he' hcmd
      obtain ⟨newer, older, hsplit⟩ := List.append_of_mem ha
      have hl : a :: older ∈ s.world.history.tails :=
        (List.mem_tails _ _).2 (hsplit ▸ List.suffix_append _ _)
      refine hlate ⟨a :: older, hl, a, rfl, hname, fun hearly ↦ hnot ?_, e', he', hprocess.symm, hcmd⟩
      have hactivated : Activated lib request older id := h.seen _ hl a rfl e he id hid hname hearly
      exact hactivated.mono (hsplit ▸ (List.suffix_cons _ _).trans (List.suffix_append _ _))

end Run

/-! ### A newcomer -/

/-- A library without secrets: a token is the id and the time, and is good for an hour. -/
def unsigned : Library where
  isAlnum c := c.isAlphanum
  normalizeUsername := id
  normalizeEmail := id
  makePassword := id
  checkPassword password encoded := password = encoded
  dumps id now := str id ++ ',' :: str now
  loads token now :=
    match (split ',' token).map int with
    | [some (.ofNat id), some (.ofNat issued)] =>
      if now ≤ issued + 3600 then .ok id else .error .signatureExpired
    | _ => .error .badSignature

/-- Somebody registers, follows the link of the mail a minute later, and logs in. -/
def newcomer : Fin 3 → AccountRequest :=
  ![.regist 0 (formData [("user_name", "li"), ("pwd", "secret"), ("cpwd", "secret"),
      ("email", "li@shop.com"), ("allow", "on")]),
    .active 60 "1,0".toList,
    .login (formData [("username", "li"), ("pwd", "secret")]) (formData [])]

/-- One after the other. -/
theorem only_activated_iff_in_order : ∃ s, (accounts unsigned (Fin 3)).perform
      (startAccounts unsigned ∅ (fun _ ↦ true) newcomer)
      (([0, 0, 0, 0, 1, 1, 2, 2] : List (Fin 3)).map .step) = some s ∧
    s.world.sessions = [1] ∧ OnlyActivated unsigned newcomer s.world := by
  have hrun : ((accounts unsigned (Fin 3)).perform (startAccounts unsigned ∅ (fun _ ↦ true) newcomer)
      (([0, 0, 0, 0, 1, 1, 2, 2] : List (Fin 3)).map .step)).map (fun s ↦
        (s.world.sessions, decide (ShutInTime unsigned newcomer s.world))) = some ([1], true) := by rfl
  obtain ⟨s, hs, heq⟩ := Option.map_eq_some_iff.1 hrun
  obtain ⟨hsessions, hshut⟩ := Prod.mk.inj heq
  have hunforged : (accounts unsigned (Fin 3)).AllMoves (fun s m _ ↦ Unforged unsigned newcomer s m)
      (([0, 0, 0, 0, 1, 1, 2, 2] : List (Fin 3)).map .step)
      (startAccounts unsigned ∅ (fun _ ↦ true) newcomer) := by decide
  exact ⟨s, hs, hsessions, (only_activated_iff (Machine.reach_of_allMoves .refl hs hunforged)).2
    (of_decide_eq_true hshut)⟩

/-- **A login before activation**: the registration dies between its two saves. The account is active and has
a session, and nobody has followed a link. -/
theorem early_login : ∃ s, (accounts unsigned (Fin 3)).perform
      (startAccounts unsigned ∅ (fun _ ↦ true) newcomer)
      [.step 0, .step 0, .kill 0, .step 2, .step 2] = some s ∧
    (accounts unsigned (Fin 3)).AllMoves (fun s m _ ↦ Unforged unsigned newcomer s m)
      [.step 0, .step 0, .kill 0, .step 2, .step 2] (startAccounts unsigned ∅ (fun _ ↦ true) newcomer) ∧
    s.world.sessions = [1] ∧ ¬ OnlyActivated unsigned newcomer s.world := by
  have hrun : ((accounts unsigned (Fin 3)).perform (startAccounts unsigned ∅ (fun _ ↦ true) newcomer)
      [.step 0, .step 0, .kill 0, .step 2, .step 2]).map (fun s ↦
        (s.world.sessions, decide (OnlyActivated unsigned newcomer s.world))) = some ([1], false) := by rfl
  obtain ⟨s, hs, heq⟩ := Option.map_eq_some_iff.1 hrun
  obtain ⟨hsessions, honly⟩ := Prod.mk.inj heq
  exact ⟨s, hs, by decide, hsessions, of_decide_eq_false honly⟩

end DailyFresh
