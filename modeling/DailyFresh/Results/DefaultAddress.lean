import DailyFresh.Results.Stock

/-!
# One default address

`UserAddressView` looks for the default address of its user and then inserts a new address, the default
one if there was none. Two requests that look before either inserts both insert a default address
(`two_defaults`), and from then on `get_default_address` raises on every page of that user.

`one_default_iff` says when this does not happen: at each insert of a default address its user has none.
That at least one stays needs nothing: an address that is no default one is only inserted by a request
that has seen a default one (`Addressed.default`), and addresses are never changed.
-/

namespace DailyFresh

open Python Store Interleave

/-- The default addresses of a user: what `get_default_address` looks for. -/
def Db.defaults (db : Db) (user : ℕ) : List (ℕ × Address) :=
  db.addresses fun a ↦ a.user = user && a.isDefault

variable {ι : Type} {request : ι → Request}

/-- Some request has completed the insert of an address of this user. -/
def HasInserted (user : ℕ) (history : List (Event ι)) : Prop :=
  ∃ t address, (⟨t, .addressCreate address, .ok ()⟩ : Event ι) ∈ history ∧ address.user = user

/-- Every user has at most one default address, and has one after the first insert; the lookup of the
default address finds one row or none. -/
structure OneDefault (w : World ι) : Prop where
  atMostOne : ∀ user, (w.db.defaults user).length ≤ 1
  exactlyOne : ∀ user, HasInserted user w.history → (w.db.defaults user).length = 1
  usable : ∀ user, getOne (w.db.defaults user) ≠ .error .multipleObjectsReturned

/-- The user for whom a request is about to insert a default address. -/
def insertsDefault (s : State Services ι (World ι) Session Reply) (t : ι) : Option ℕ :=
  match (s.prog t).next? with
  | some (.addressCreate address) =>
    if address.isDefault && address.row?.isSome && !(s.loc t).needsRollback then some address.user
    else none
  | _ => none

/-- A default address is inserted for a user who has none. -/
def FirstDefault (s : State Services ι (World ι) Session Reply) : Move ι → Prop
  | .kill _ => True
  | .step t => ∀ user ∈ insertsDefault s t, s.world.db.defaults user = []

/-! ### Inserting an address -/

theorem getOne_ne_multiple_iff {R : Type} {rows : List R} :
    getOne rows ≠ .error .multipleObjectsReturned ↔ rows.length ≤ 1 := by
  rcases rows with - | ⟨r₁, - | ⟨r₂, rows⟩⟩ <;> simp [getOne]

/-- A new address joins those that satisfy a test, or does not. -/
theorem Db.addresses_insert {db : Db} {row : Address} (test : Address → Bool) :
    ({ db with addrs := db.addrs.insert db.nextAddress row } : Db).addresses test =
      if test row then (db.nextAddress, row) :: db.addresses test else db.addresses test := by
  have hnew : db.nextAddress ∉ db.addrs := AList.lookup_eq_none.1 db.address_nextAddress
  rw [addresses, addresses, AList.entries_insert_of_notMem hnew, List.map_cons, List.filter_cons]

theorem Db.defaults_insert {db : Db} {row : Address} (user : ℕ) :
    (({ db with addrs := db.addrs.insert db.nextAddress row } : Db).defaults user).length =
      (db.defaults user).length + if row.user = user ∧ row.isDefault then 1 else 0 := by
  rw [defaults, addresses_insert]
  by_cases h : row.user = user ∧ row.isDefault = true
  · simp [h, defaults]
  · have htest : (decide (row.user = user) && row.isDefault) = false := by
      simpa using h
    simp [htest, h, defaults]

variable [DecidableEq ι] {s s' : State Services ι (World ι) Session Reply} {m : Move ι} {t : ι}
  {w w' : World ι}

instance (s : State Services ι (World ι) Session Reply) : DecidablePred (FirstDefault s)
  | .kill _ => isTrue trivial
  | .step t => by
    unfold FirstDefault
    infer_instance

/-- Only `UserAddressView` writes addresses. -/
theorem Effect.addrs_cases {pick : Prop → Pick → Prop} (h : Effect request pick t w w') :
    w'.db.addrs = w.db.addrs ∨ ∃ address row, Addressed request t address row w w' := by
  cases h with
  | quiet h => exact .inl (by rw [h.db])
  | hdel _ _ _ hdb => exact .inl (by rw [hdb])
  | hset _ _ _ _ hdb => exact .inl (by rw [hdb])
  | placed r h => exact .inl h.addrs
  | paid _ _ _ h => exact .inl (by rw [h.saved.db])
  | finished _ _ h => exact .inl (by rw [h.saved.db])
  | commented _ _ _ hdb => exact .inl (by rw [hdb])
  | addressed address row h => exact .inr ⟨address, row, h⟩
  | edited _ _ _ _ _ _ hdb => exact .inl (by rw [hdb])
  | browsed _ _ _ hdb => exact .inl (by rw [hdb])

theorem Db.defaults_of_addrs {db db' : Db} (h : db'.addrs = db.addrs) (user : ℕ) :
    db'.defaults user = db.defaults user := by
  rw [defaults, defaults, addresses, addresses, h]

/-- A user with a default address has one in the list. -/
theorem Db.defaults_ne_nil {db : Db} {user n : ℕ} {a : Address} (h : db.address n = some a)
    (huser : a.user = user) (hdefault : a.isDefault = true) : db.defaults user ≠ [] := by
  have hmem : (n, a) ∈ db.defaults user :=
    Db.mem_addresses_iff.2 ⟨h, by simp [huser, hdefault]⟩
  exact List.ne_nil_of_mem hmem

/-- An insert that has succeeded. -/
theorem exec_addressCreate_ok {address : AddressObject} {l l' : Session}
    (h : exec t w l (.addressCreate address) = some (.ok (), w', l')) :
    l.needsRollback = false ∧ ∃ row, address.row? = some row ∧
      w'.db = { w.db with addrs := w.db.addrs.insert w.db.nextAddress row } := by
  rcases hbroken : l.needsRollback with - | -
  · obtain ⟨v, hrun, rfl⟩ := (exec_eq_some_iff hbroken).1 h
    obtain ⟨e, he, -⟩ | ⟨row, -, hrow, -, rfl⟩ := run_addressCreate_cases hrun
    · cases he
    · exact ⟨rfl, row, hrow, rfl⟩
  · rw [exec, hbroken] at h
    cases h

/-- The new address is one more row. -/
theorem addrs_insert_ne (db : Db) (row : Address) : db.addrs.insert db.nextAddress row ≠ db.addrs := by
  intro h
  have hnew := db.address_nextAddress
  rw [Db.address, ← h, AList.lookup_insert] at hnew
  cases hnew

/-- What is known of a move that adds an address: it is the step that was about to. -/
structure Inserts (request : ι → Request) (s s' : State Services ι (World ι) Session Reply) (t : ι)
    (address : AddressObject) (row : Address) : Prop where
  next : (s.prog t).next? = some (.addressCreate address)
  sound : (s.loc t).needsRollback = false
  addressed : Addressed request t address row s.world s'.world

theorem inserts_of_addressed {address : AddressObject} {row : Address} (hn : (site ι).next s m = some s')
    (h : Addressed request m.process address row s.world s'.world) :
    ∃ t, m = .step t ∧ Inserts request s s' t address row := by
  cases m with
  | kill t =>
    have hhistory : s'.world.history = s.world.history := by
      rw [next_kill_world hn]
      rfl
    exact absurd (h.history.symm.trans hhistory) (List.cons_ne_self _ _)
  | step t =>
    obtain ⟨c, r, l, hc, hx, hhistory⟩ := next_step_history hn
    obtain ⟨hevent, -⟩ := List.cons.inj (hhistory.symm.trans h.history)
    cases hevent
    exact ⟨t, rfl, hc, (exec_addressCreate_ok hx).1, h⟩

/-- An insert that goes down in the history is one. -/
theorem addressed_of_event {pick : Prop → Pick → Prop} {address : AddressObject}
    (hn : (site ι).next s (.step t) = some s') (heffect : Effect request pick t s.world s'.world)
    (hhistory : s'.world.history = ⟨t, .addressCreate address, .ok ()⟩ :: s.world.history) :
    ∃ row, Addressed request t address row s.world s'.world := by
  obtain ⟨c, r, l, hc, hx, hhistory'⟩ := next_step_history hn
  obtain ⟨hevent, -⟩ := List.cons.inj (hhistory'.symm.trans hhistory)
  cases hevent
  obtain ⟨-, row, hrow, hdb⟩ := exec_addressCreate_ok hx
  obtain hsame | ⟨address', row', haddressed⟩ := heffect.addrs_cases
  · rw [hdb] at hsame
    exact absurd hsame (addrs_insert_ne _ _)
  · obtain ⟨hevent, -⟩ := List.cons.inj (haddressed.history.symm.trans hhistory)
    cases hevent
    exact ⟨row', haddressed⟩

/-! ### One move -/

omit [DecidableEq ι] in
theorem OneDefault.of_length (hone : ∀ user, (w.db.defaults user).length ≤ 1)
    (hinserted : ∀ user, HasInserted user w.history → (w.db.defaults user).length = 1) :
    OneDefault w :=
  ⟨hone, hinserted, fun user ↦ getOne_ne_multiple_iff.2 (hone user)⟩

/-- A move that adds no address keeps everybody's default address, and is no insert. -/
theorem oneDefault_of_addrs {pick : Prop → Pick → Prop} (hn : (site ι).next s m = some s')
    (heffect : Effect request pick m.process s.world s'.world)
    (hsame : s'.world.db.addrs = s.world.db.addrs) (h : OneDefault s.world) :
    OneDefault s'.world ∧ FirstDefault s m := by
  have hdefaults : ∀ user, s'.world.db.defaults user = s.world.db.defaults user :=
    Db.defaults_of_addrs hsame
  have hnone : ∀ {t address row}, ¬ Addressed request t address row s.world s'.world := by
    intro t address row haddressed
    rw [haddressed.db] at hsame
    exact addrs_insert_ne _ _ hsame
  constructor
  · refine .of_length (fun user ↦ hdefaults user ▸ h.atMostOne user) fun user hinserted ↦ ?_
    rw [hdefaults]
    refine h.exactlyOne user ?_
    obtain ⟨u, address, hmem, huser⟩ := hinserted
    cases m with
    | kill t =>
      rw [next_kill_world hn] at hmem
      exact ⟨u, address, hmem, huser⟩
    | step t =>
      obtain ⟨c, r, l, hc, hx, hhistory⟩ := next_step_history hn
      rw [hhistory] at hmem
      rcases List.mem_cons.1 hmem with hevent | hmem
      · obtain rfl : u = t := congrArg Event.process hevent
        rw [← hevent] at hhistory
        obtain ⟨row, haddressed⟩ := addressed_of_event hn heffect hhistory
        exact absurd haddressed hnone
      · exact ⟨u, address, hmem, huser⟩
  · cases m with
    | kill t => trivial
    | step t =>
      intro user huser
      exfalso
      obtain ⟨c, r, l, hc, hx, hhistory⟩ := next_step_history hn
      rw [Option.mem_def, insertsDefault, hc] at huser
      split at huser
      · rename_i address heq
        cases heq
        split at huser
        · rename_i hready
          obtain ⟨⟨-, hfits⟩, hsound⟩ : (address.isDefault = true ∧ address.row?.isSome = true) ∧
              (s.loc t).needsRollback = false := by simpa using hready
          obtain ⟨row, hrow⟩ := Option.isSome_iff_exists.1 hfits
          -- a default address that fits is inserted, but no address has been
          obtain ⟨v, hrun, hv⟩ := (exec_eq_some_iff hsound).1 hx
          rw [run, hrow] at hrun
          cases hrun
          rw [hv] at hsame
          exact addrs_insert_ne _ _ hsame
        · cases huser
      · cases huser

omit [DecidableEq ι] in
/-- An insert keeps one default address for everybody exactly if it is no default one, or the first. -/
theorem oneDefault_of_inserts {address : AddressObject} {row : Address}
    (h : Inserts request s s' t address row) (hone : OneDefault s.world) :
    OneDefault s'.world ↔ FirstDefault s (.step t) := by
  obtain ⟨huser, hdefault⟩ := AddressObject.row?_user h.addressed.fits
  have hlength : ∀ user, (s'.world.db.defaults user).length = (s.world.db.defaults user).length +
      if row.user = user ∧ row.isDefault then 1 else 0 := by
    intro user
    rw [h.addressed.db, Db.defaults_insert]
  have hfirst : FirstDefault s (.step t) ↔
      (row.isDefault = true → s.world.db.defaults row.user = []) := by
    show (∀ user ∈ insertsDefault s t, s.world.db.defaults user = []) ↔ _
    simp only [insertsDefault, h.next, h.sound, h.addressed.fits, ← hdefault, ← huser]
    by_cases hd : row.isDefault = true
    · simp [hd]
    · simp [hd]
  have hinserted : ∀ user, HasInserted user s'.world.history ↔
      row.user = user ∨ HasInserted user s.world.history := by
    intro user
    constructor
    · rintro ⟨u, a, hmem, ha⟩
      rw [h.addressed.history] at hmem
      rcases List.mem_cons.1 hmem with hevent | hmem
      · cases hevent
        exact .inl (huser.trans ha)
      · exact .inr ⟨u, a, hmem, ha⟩
    · rintro (rfl | ⟨u, a, hmem, ha⟩)
      · exact ⟨t, address, by rw [h.addressed.history]; exact List.mem_cons_self, huser.symm⟩
      · exact ⟨u, a, by rw [h.addressed.history]; exact List.mem_cons_of_mem _ hmem, ha⟩
  rw [hfirst]
  constructor
  · intro hone' hd
    have hle := hone'.atMostOne row.user
    rw [hlength, if_pos ⟨rfl, hd⟩] at hle
    exact List.length_eq_zero_iff.1 (by omega)
  · intro hnil
    refine .of_length (fun user ↦ ?_) fun user hins ↦ ?_
    · rw [hlength]
      split
      · rename_i hnew
        obtain ⟨rfl, hd⟩ := hnew
        rw [hnil hd]
        exact le_rfl
      · exact hone.atMostOne user
    · rw [hlength]
      split
      · rename_i hnew
        obtain ⟨rfl, hd⟩ := hnew
        rw [hnil hd]
        rfl
      · rename_i hold
        rcases (hinserted user).1 hins with rfl | hins
        · -- an address that is no default one: its request has seen a default one
          have hd : address.isDefault = false := by
            rw [← hdefault]
            exact Bool.eq_false_iff.2 fun hd ↦ hold ⟨rfl, hd⟩
          obtain ⟨n, a, ha, hauser, hadefault⟩ := h.addressed.default hd
          have hne := Db.defaults_ne_nil ha (hauser.trans huser.symm) hadefault
          have hpos := List.length_pos_of_ne_nil hne
          have hle := hone.atMostOne row.user
          omega
        · exact hone.exactlyOne user hins

/-- **One default address.** A run from tables with at most one default address for each user keeps it
so, with exactly one from the first insert on, if and only if each default address that it inserts is the
user's first. -/
theorem one_default_iff {db : Db} (hlinked : db.Linked) (hdb : ∀ user, (db.defaults user).length ≤ 1)
    {carts : ℕ → Cart} {gateway : ℕ → Answer} (ms : List (Move ι)) :
    (site ι).AllMoves (fun _ _ s' ↦ OneDefault s'.world) ms (start db carts gateway request) ↔
      (site ι).AllMoves (fun s m _ ↦ FirstDefault s m) ms (start db carts gateway request) := by
  have hstart : OneDefault (start db carts gateway request).world := by
    refine .of_length hdb fun user hinserted ↦ ?_
    obtain ⟨t, address, hmem, -⟩ := hinserted
    cases hmem
  refine Machine.allMoves_inv_iff AnyMove (I := fun s ↦ OneDefault s.world)
    (fun s m s' hs _ hn hone ↦ ?_) .refl (Machine.allMoves_of_forall (fun _ _ _ ↦ trivial) ms _) hstart
  have heffect := (promise_of_reach (noDiscipline request) hlinked trivial hs hn).effect
  obtain hsame | ⟨address, row, haddressed⟩ := heffect.addrs_cases
  · obtain ⟨hone', hfirst⟩ := oneDefault_of_addrs hn heffect hsame hone
    exact ⟨fun _ ↦ hfirst, fun _ ↦ hone'⟩
  · obtain ⟨t, rfl, hinserts⟩ := inserts_of_addressed hn haddressed
    exact oneDefault_of_inserts hinserts hone

/-! ### Two requests at once -/

/-- User 9 adds an address. -/
def newAddress : Request :=
  .address { user := some 9, POST := formData [("receiver", "Wang"), ("addr", "Main Street"),
    ("zip_code", "100000"), ("phone", "13812345678")] }

theorem smallShop_defaults (user : ℕ) : (smallShop.defaults user).length ≤ 1 := by
  show ([(2, home 8), (1, home 7)].filter fun x ↦ x.2.user = user && x.2.isDefault).length ≤ 1
  rcases eq_or_ne user 7 with rfl | h7
  · decide
  rcases eq_or_ne user 8 with rfl | h8
  · decide
  · simp [home, h7.symm, h8.symm]

/-- One after the other. -/
theorem one_default_iff_in_order : (site (Fin 2)).AllMoves (fun _ _ s' ↦ OneDefault s'.world)
    [.step 0, .step 0, .step 1, .step 1]
    (start smallShop (fun _ ↦ ∅) silent fun _ ↦ newAddress) :=
  (one_default_iff smallShop_linked smallShop_defaults _).2 (by decide)

/-- **Two default addresses**: both requests look before either inserts. -/
theorem two_defaults : ∃ s, (site (Fin 2)).perform
      (start smallShop (fun _ ↦ ∅) silent fun _ ↦ newAddress)
      [.step 0, .step 1, .step 0, .step 1] = some s ∧
    (s.world.db.defaults 9).length = 2 ∧ ¬ OneDefault s.world := by
  have hrun : ((site (Fin 2)).perform (start smallShop (fun _ ↦ ∅) silent fun _ ↦ newAddress)
      [.step 0, .step 1, .step 0, .step 1]).map (fun s ↦ (s.world.db.defaults 9).length) = some 2 := by
    rfl
  obtain ⟨s, hs, hlength⟩ := Option.map_eq_some_iff.1 hrun
  refine ⟨s, hs, hlength, fun hone ↦ ?_⟩
  have hle := hone.atMostOne 9
  omega

end DailyFresh
