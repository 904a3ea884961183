import DailyFresh.Concurrent.CommitPath
import DailyFresh.Results.Stock

/-!
# A checkout that is cut short

A checkout writes to two stores, and only one of them is transactional: it deletes the fields from the
cart in Redis, and then commits its order in MySQL. If it dies in between, or the commit fails, the
database rolls the order back and the cart stays empty (`cut_short`).

`not_lost_iff` says exactly when nothing is lost, for every checkout, killed at any point or not at all, among
any requests of other users: whenever the checkout deletes a field, it has taken what the field holds; and it
is not killed between the deletion and the commit. The invariant has a third place for an entry, besides the
cart and the committed lines: the order that is about to be committed (`InHand`).
-/

namespace DailyFresh

open Python Store Interleave

variable {ι : Type}

/-- The fields of the cart that a checkout asks for. -/
def HttpRequest.fields (req : HttpRequest) : List Str :=
  match nonempty (req.POST "sku_ids".toList) with
  | some skuIds => split ',' skuIds
  | none => []

theorem HttpRequest.Asks.ids_eq {req : HttpRequest} {c : Checkout} (h : req.Asks c) :
    c.ids = req.fields := by
  rw [Checkout.ids, HttpRequest.fields, h.skuIds]

/-- A line after the first `k`, of an order of the user, records this count of the product that the field
denotes. -/
def Recorded (k user : ℕ) (db : Db) (field : Str) (count : ℤ) : Prop :=
  ∃ line ∈ db.lines.drop k, (∃ row, db.orders line.order = some row ∧ row.user = user) ∧
    int field = some (line.sku : ℤ) ∧ line.count.val = count

/-- What these fields of `cart` hold is still in the user's cart, or recorded in a line that has been
committed since `db`. -/
def NotLost (db : Db) (cart : Cart) (user : ℕ) (fields : List Str) (w : World ι) : Prop :=
  ∀ field ∈ fields, ∀ count, cart.lookup field = some count →
    (w.carts user).lookup field = some count ∨ Recorded db.lines.length user w.db field count

/-- A checkout with this log has taken this count of the product that the field denotes. -/
def HasTaken (es : List (Event ι)) (field : Str) (count : ℤ) : Prop :=
  ∃ x ∈ takenItems es, int x.1 = int field ∧ x.2 = count

instance (es : List (Event ι)) (field : Str) (count : ℤ) : Decidable (HasTaken es field count) :=
  inferInstanceAs (Decidable (∃ x ∈ takenItems es, _))

variable [DecidableEq ι]

/-- The checkout `t` takes what it deletes, and is not killed with anything deleted and not committed. -/
def Intact (t : ι) (cart : Cart) (fields : List Str) (s : State Services ι (World ι) Session Reply) :
    Move ι → Prop
  | .kill u => u = t → committing s t = true → ∀ field ∈ fields, cart.lookup field = none
  | .step u => u = t → (s.prog t).next?.any Cmd.writesCart = true →
      ∀ field ∈ fields, ∀ count ∈ cart.lookup field, HasTaken (s.world.log t) field count

instance (t : ι) (cart : Cart) (fields : List Str) (s : State Services ι (World ι) Session Reply) :
    DecidablePred (Intact t cart fields s)
  | .kill _ => inferInstanceAs (Decidable (_ → _ = true → ∀ field ∈ fields, _))
  | .step _ => inferInstanceAs (Decidable (_ → _ = true → ∀ field ∈ fields, ∀ count ∈ cart.lookup field, _))

/-! ### Recorded entries -/

section Recorded

variable {request : ι → Request} {t : ι} {w w' : World ι} {k user : ℕ} {field : Str} {count : ℤ}

omit [DecidableEq ι] in
/-- Comments do not matter. -/
theorem recorded_iff_core {db : Db} : Recorded k user db field count ↔
    ∃ line ∈ db.coreLines.drop k, (∃ row, db.orders line.order = some row ∧ row.user = user) ∧
      int field = some (line.sku : ℤ) ∧ line.count.val = count := by
  rw [Db.coreLines, ← List.map_drop]
  constructor
  · rintro ⟨line, hline, h⟩
    exact ⟨line.core, List.mem_map_of_mem hline, h⟩
  · rintro ⟨line, hline, h⟩
    obtain ⟨line', hline', rfl⟩ := List.mem_map.1 hline
    exact ⟨line', hline', h⟩

/-- A command that commits no order records nothing, and unrecords nothing. -/
theorem Unplaced.recorded_iff (h : Unplaced t w w') (hconsiderate : Considerate t w w') :
    Recorded k user w'.db field count ↔ Recorded k user w.db field count := by
  rw [recorded_iff_core, recorded_iff_core, h.lines]
  have horder : ∀ orderId, (∃ row, w'.db.orders orderId = some row ∧ row.user = user) ↔
      ∃ row, w.db.orders orderId = some row ∧ row.user = user := by
    intro orderId
    constructor
    · rintro ⟨row, hrow, huser⟩
      obtain ⟨old, hold, hcore⟩ := h.orders orderId row hrow
      obtain ⟨heq, -⟩ := OrderInfo.mk.inj hcore
      exact ⟨old, hold, heq.symm.trans huser⟩
    · rintro ⟨row, hrow, huser⟩
      obtain ⟨new, hnew, hcore⟩ := hconsiderate.core orderId row hrow
      obtain ⟨heq, -⟩ := OrderInfo.mk.inj hcore
      exact ⟨new, hnew, heq.trans huser⟩
  simp only [horder]

/-- The commit of an order records its lines, for its user. -/
theorem Placed.recorded_iff {pick : Prop → Pick → Prop} {r : Receipt}
    (h : Placed request pick t r w w') (hlinked : w.db.Linked) (hk : k ≤ w.db.lines.length) :
    Recorded k user w'.db field count ↔ Recorded k user w.db field count ∨
      r.checkout.user = user ∧ HasTaken (w.log t) field count := by
  obtain ⟨-, hobject⟩ := OrderObject.row?_eq_some_iff.1 h.of.row
  have hrowUser : r.row.user = r.checkout.user := congrArg OrderObject.user hobject
  have hlines : w'.db.lines.drop k = w.db.lines.drop k ++ r.lines := by
    rw [h.lines, List.drop_append_of_le_length hk]
  have hold : ∀ line ∈ w.db.lines.drop k, w'.db.orders line.order = w.db.orders line.order := by
    intro line hline
    obtain ⟨row, hrow⟩ := hlinked line (List.mem_of_mem_drop hline)
    have hne : line.order ≠ r.orderId := by
      intro heq
      rw [heq, h.absent] at hrow
      cases hrow
    rw [h.orders, Table.set_of_ne hne]
  constructor
  · rintro ⟨line, hline, ⟨row, hrow, huser⟩, hsku, hcount⟩
    rw [hlines] at hline
    rcases List.mem_append.1 hline with hline | hline
    · exact .inl ⟨line, hline, ⟨row, hold line hline ▸ hrow, huser⟩, hsku, hcount⟩
    · have hmem : some line ∈ r.lines.map some := List.mem_map_of_mem hline
      rw [← h.of.lines] at hmem
      obtain ⟨p, hp, hfits⟩ := List.mem_map.1 hmem
      obtain ⟨horder, hlineSku, hlineCount, -⟩ := LineObject.row?_eq_some_iff.1 hfits
      have horder' : line.order = r.orderId := horder
      rw [horder', h.orders, Table.set_self] at hrow
      obtain rfl := Option.some.inj hrow
      refine .inr ⟨hrowUser.symm.trans huser, (p.raw, p.count), ?_, ?_, hlineCount.symm.trans hcount⟩
      · rw [h.of.taken]
        exact List.mem_map_of_mem hp
      · have hlineSku' : line.sku = p.sku := hlineSku
        rw [hsku, hlineSku']
        exact h.of.denotes p hp
  · rintro (⟨line, hline, ⟨row, hrow, huser⟩, hsku, hcount⟩ | ⟨huser, x, hx, hint, hcount⟩)
    · refine ⟨line, hlines ▸ List.mem_append_left _ hline, ⟨row, ?_, huser⟩, hsku, hcount⟩
      rw [hold line hline, hrow]
    · rw [h.of.taken] at hx
      obtain ⟨p, hp, rfl⟩ := List.mem_map.1 hx
      have hmem : (p.line r.orderId).row? ∈ r.lines.map some := by
        rw [← h.of.lines]
        exact List.mem_map_of_mem hp
      obtain ⟨line, hline, hfits⟩ := List.mem_map.1 hmem
      obtain ⟨horder, hlineSku, hlineCount, -⟩ := LineObject.row?_eq_some_iff.1 hfits.symm
      have horder' : line.order = r.orderId := horder
      have hlineSku' : line.sku = p.sku := hlineSku
      refine ⟨line, hlines ▸ List.mem_append_right _ hline, ⟨r.row, ?_, hrowUser.trans huser⟩, ?_,
        hlineCount.trans hcount⟩
      · rw [horder', h.orders, Table.set_self]
      · rw [hlineSku', ← h.of.denotes p hp]
        exact hint.symm

end Recorded

/-! ### One move -/

/-- The order that is about to be committed holds this count of the product that the field denotes. -/
def InHand (t : ι) (s : State Services ι (World ι) Session Reply) (field : Str) (count : ℤ) : Prop :=
  committing s t = true ∧ HasTaken (s.world.log t) field count

/-- No entry is lost so far: each is still in the cart, in a committed line, or in the order that is about
to be committed. -/
def SoFar (db : Db) (cart : Cart) (user : ℕ) (fields : List Str) (t : ι)
    (s : State Services ι (World ι) Session Reply) : Prop :=
  ∀ field ∈ fields, ∀ count, cart.lookup field = some count →
    (s.world.carts user).lookup field = some count ∨
      Recorded db.lines.length user s.world.db field count ∨ InHand t s field count

/-- What is known at every point of a run: the path of the checkout; its cart and its records, before and
after the deletion. -/
structure Course (db : Db) (cart : Cart) (user : ℕ) (fields : List Str) (t : ι)
    (s : State Services ι (World ι) Session Reply) : Prop where
  path : s.prog t = .ret .error ∨ Throughout (Event.mk t) (CommitPath t) (s.prog t) (s.world.log t)
  before : NoHdel (s.world.log t) → s.world.carts user = cart
  after : ¬ NoHdel (s.world.log t) → ∀ field ∈ fields, (s.world.carts user).lookup field = none
  unrecorded : NoHdel (s.world.log t) ∨ committing s t = true → ∀ field count,
    ¬ Recorded db.lines.length user s.world.db field count
  length : db.lines.length ≤ s.world.db.lines.length

section Step

variable {request : ι → Request} {t : ι} {db : Db} {cart : Cart} {user : ℕ} {fields : List Str}
  {s s' : State Services ι (World ι) Session Reply} {m : Move ι}

/-- What a move does to the entries of the cart. -/
theorem Course.soFar_of_noHdel (h : Course db cart user fields t s) (hnone : NoHdel (s.world.log t)) :
    SoFar db cart user fields t s := by
  intro field _ count hentry
  rw [h.before hnone]
  exact .inl hentry

/-- A move that leaves the checkout, its cart and its records alone. -/
theorem Course.of_same (h : Course db cart user fields t s)
    (hpath : s'.prog t = .ret .error ∨ Throughout (Event.mk t) (CommitPath t) (s'.prog t) (s'.world.log t))
    (hcart : s'.world.carts user = s.world.carts user)
    (hnoHdel : NoHdel (s'.world.log t) ↔ NoHdel (s.world.log t))
    (hcommitting : committing s' t = committing s t)
    (htaken : committing s t = true → ∀ field count,
      (HasTaken (s'.world.log t) field count ↔ HasTaken (s.world.log t) field count))
    (hrecorded : ∀ field count, Recorded db.lines.length user s'.world.db field count ↔
      Recorded db.lines.length user s.world.db field count)
    (hlength : s.world.db.lines.length ≤ s'.world.db.lines.length) :
    Course db cart user fields t s' ∧ (SoFar db cart user fields t s' ↔ SoFar db cart user fields t s) := by
  refine ⟨⟨hpath, fun hnone ↦ hcart.trans (h.before (hnoHdel.1 hnone)), fun hsome field hfield ↦ ?_,
    fun hor field count ↦ ?_, h.length.trans hlength⟩, ?_⟩
  · rw [hcart]
    exact h.after (fun hnone ↦ hsome (hnoHdel.2 hnone)) field hfield
  · rw [hrecorded]
    exact h.unrecorded (hor.imp hnoHdel.1 fun hcomm ↦ hcommitting ▸ hcomm) field count
  · have hhand : ∀ field count, InHand t s' field count ↔ InHand t s field count := by
      intro field count
      rw [InHand, InHand, hcommitting]
      exact and_congr_right fun hcomm ↦ htaken hcomm field count
    unfold SoFar
    simp only [hcart, hrecorded, hhand]

/-- A move of another request, of another user. -/
theorem Course.of_other (h : Course db cart user fields t s) (hlinked : s.world.db.Linked)
    (hpath : s'.prog t = .ret .error ∨ Throughout (Event.mk t) (CommitPath t) (s'.prog t) (s'.world.log t))
    (hn : (site ι).next s m = some s') (hm : m.process ≠ t)
    (huser : (request m.process).user ≠ some user)
    (hpromise : Promise (noDiscipline request) m.process s.world s'.world) :
    Course db cart user fields t s' ∧ (SoFar db cart user fields t s' ↔ SoFar db cart user fields t s) := by
  obtain ⟨hprog, -⟩ := (site ι).next_other hn (u := t) hm.symm
  have hlog : s'.world.log t = s.world.log t := hpromise.considerate.log t hm.symm
  have hlength : s.world.db.lines.length ≤ s'.world.db.lines.length := by
    have hle := hpromise.considerate.lines.length_le
    rwa [Db.coreLines, Db.coreLines, List.length_map, List.length_map] at hle
  refine h.of_same hpath (hpromise.effect.cart_of_other huser) (by rw [hlog])
    (by rw [committing, committing, hprog, hlog]) (fun _ _ _ ↦ by rw [hlog]) (fun field count ↦ ?_)
    hlength
  -- the lines that another checkout commits are of another user
  obtain ⟨r, hplaced⟩ | hunplaced := hpromise.effect.placed_or
  · rw [hplaced.recorded_iff hlinked h.length]
    refine or_iff_left fun hown ↦ huser ?_
    rw [hplaced.of.request, ← hown.1]
    exact hplaced.of.asks.user
  · exact hunplaced.recorded_iff hpromise.considerate

/-- The checkout is killed. -/
theorem Course.of_kill (h : Course db cart user fields t s) (hn : (site ι).next s (.kill t) = some s') :
    Course db cart user fields t s' ∧
      (SoFar db cart user fields t s' ↔
        SoFar db cart user fields t s ∧ Intact t cart fields s (.kill t)) := by
  have hworld := next_kill_world hn
  have hdead : s'.prog t = .ret .error := by
    obtain ⟨-, rfl⟩ := (site ι).next_kill_cases hn
    exact State.put_prog_self ..
  have hlog : s'.world.log t = s.world.log t := by
    rw [hworld]
    rfl
  have hcarts : s'.world.carts = s.world.carts := by
    rw [hworld]
    rfl
  have hdb : s'.world.db = s.world.db := by
    rw [hworld]
    rfl
  have hgone : committing s' t = false := by
    rw [committing, hdead]
    rfl
  by_cases hcommitting : committing s t = true
  · -- whatever was deleted is lost
    have hsome : ¬ NoHdel (s.world.log t) :=
      noHdel_of_clears (Bool.and_eq_true_iff.1 hcommitting).2
    have hnothing : ∀ field count, ¬ Recorded db.lines.length user s'.world.db field count := by
      rw [hdb]
      exact h.unrecorded (.inr hcommitting)
    refine ⟨⟨.inl hdead, fun hnone ↦ absurd (hlog ▸ hnone) hsome, fun _ ↦ ?_, fun _ ↦ hnothing, ?_⟩, ?_⟩
    · rw [hcarts]
      exact h.after hsome
    · rw [hdb]
      exact h.length
    · constructor
      · intro hsofar
        have hempty : ∀ field ∈ fields, cart.lookup field = none := by
          intro field hfield
          rcases hentry : cart.lookup field with - | count
          · rfl
          · rcases hsofar field hfield count hentry with hthere | hrecorded | hhand
            · rw [hcarts, h.after hsome field hfield] at hthere
              cases hthere
            · exact absurd hrecorded (hnothing field count)
            · exact absurd (hgone.symm.trans hhand.1) (by decide)
        refine ⟨fun field hfield count hentry ↦ ?_, fun _ _ ↦ hempty⟩
        cases (hempty field hfield).symm.trans hentry
      · rintro ⟨-, hintact⟩ field hfield count hentry
        cases (hintact rfl hcommitting field hfield).symm.trans hentry
  · have hgone' : committing s t = false := Bool.eq_false_iff.2 hcommitting
    -- killed before the deletion or after the commit: nothing is in hand
    obtain ⟨hcourse, hiff⟩ := h.of_same (.inl hdead) (by rw [hcarts]) (by rw [hlog])
      (hgone.trans hgone'.symm) (fun _ _ _ ↦ by rw [hlog]) (fun _ _ ↦ by rw [hdb]) (by rw [hdb])
    exact ⟨hcourse, hiff.trans (iff_self_and.2 fun _ _ hcomm ↦ absurd hcomm hcommitting)⟩

/-- A step of the checkout that changes neither tables nor carts. -/
theorem Course.of_quiet (h : Course db cart user fields t s)
    (hpath : Throughout (Event.mk t) (CommitPath t) (s'.prog t) (s'.world.log t))
    (hn : (site ι).next s (.step t) = some s') (hquiet : Quiet t s.world s'.world) :
    Course db cart user fields t s' ∧
      (SoFar db cart user fields t s' ↔
        SoFar db cart user fields t s ∧ Intact t cart fields s (.step t)) := by
  obtain ⟨c, r, l, hc, -, hhistory⟩ := next_step_history hn
  obtain ⟨hwrites, hnot, hnot'⟩ := not_committing_of_quiet hc hhistory hquiet hpath.now
  have hlog := World.log_cons_self hhistory
  have hnoHdel : NoHdel (s'.world.log t) ↔ NoHdel (s.world.log t) := by
    rw [hlog, noHdel_cons_iff]
    refine and_iff_right fun user fields hcmd ↦ ?_
    have hcmd' : c = .hdel user fields := hcmd
    rw [hcmd'] at hwrites
    cases hwrites
  obtain ⟨hcourse, hiff⟩ := h.of_same (.inr hpath) (by rw [hquiet.carts]) hnoHdel
    (hnot'.trans hnot.symm) (fun hcomm ↦ absurd (hnot.symm.trans hcomm) (by decide))
    (fun _ _ ↦ by rw [hquiet.db]) (by rw [hquiet.db])
  refine ⟨hcourse, hiff.trans (iff_self_and.2 fun _ _ hany ↦ ?_)⟩
  rw [hc, Option.any_some, hwrites] at hany
  cases hany

/-- The deletion: each entry has been taken, or it is lost. -/
theorem Course.of_hdel (h : Course db cart user fields t s)
    (hpath : Throughout (Event.mk t) (CommitPath t) (s'.prog t) (s'.world.log t))
    (hn : (site ι).next s (.step t) = some s') (hdb : s'.world.db = s.world.db)
    (hcarts : s'.world.carts = Function.update s.world.carts user ((s.world.carts user).hdel fields))
    (hhistory : s'.world.history = ⟨t, .hdel user fields, ()⟩ :: s.world.history) :
    Course db cart user fields t s' ∧
      (SoFar db cart user fields t s' ↔
        SoFar db cart user fields t s ∧ Intact t cart fields s (.step t)) := by
  obtain ⟨c, r, l, hc, -, hevent⟩ := next_step_history hn
  cases (List.cons.inj (hevent.symm.trans hhistory)).1
  have hlog := World.log_cons_self hhistory
  have hnow := hpath.now
  rw [hlog] at hnow
  obtain ⟨hnone, hnext⟩ := hnow.of_hdel
  have hcommitting : committing s' t = true := by
    show (decide ((s'.prog t).next? = some .commit) && (s'.world.log t).any Event.clears) = true
    rw [hnext, hlog]
    rfl
  have hsome : ¬ NoHdel (s'.world.log t) := noHdel_of_clears (Bool.and_eq_true_iff.1 hcommitting).2
  have hgone : ∀ field ∈ fields, (s'.world.carts user).lookup field = none := by
    intro field hfield
    rw [hcarts, Function.update_self, Cart.lookup_hdel, if_pos hfield]
  have hnothing : ∀ field count, ¬ Recorded db.lines.length user s'.world.db field count := by
    rw [hdb]
    exact h.unrecorded (.inl hnone)
  have htaken : ∀ field count,
      (HasTaken (s'.world.log t) field count ↔ HasTaken (s.world.log t) field count) := by
    intro field count
    rw [HasTaken, hlog, takenItems_cons_of_none rfl, HasTaken]
  refine ⟨⟨.inr hpath, fun hnone' ↦ absurd hnone' hsome, fun _ ↦ hgone, fun _ ↦ hnothing,
    by rw [hdb]; exact h.length⟩, ?_⟩
  -- from the cart into the hand: only what has been taken is there
  constructor
  · refine fun hsofar ↦ ⟨h.soFar_of_noHdel hnone, fun _ _ field hfield count hentry ↦ ?_⟩
    rcases hsofar field hfield count hentry with hthere | hrecorded | hhand
    · cases (hgone field hfield).symm.trans hthere
    · exact absurd hrecorded (hnothing field count)
    · exact (htaken field count).1 hhand.2
  · rintro ⟨-, hintact⟩ field hfield count hentry
    have hall := hintact rfl (by rw [hc]; rfl) field hfield count hentry
    exact .inr (.inr ⟨hcommitting, (htaken field count).2 hall⟩)

/-- The commit: what was in hand is recorded. -/
theorem Course.of_placed (h : Course db cart user fields t s)
    (hpath : Throughout (Event.mk t) (CommitPath t) (s'.prog t) (s'.world.log t))
    (hn : (site ι).next s (.step t) = some s') (hlinked : s.world.db.Linked) {receipt : Receipt}
    (hplaced : Placed request (fun _ _ ↦ True) t receipt s.world s'.world)
    (huser : receipt.checkout.user = user) :
    Course db cart user fields t s' ∧
      (SoFar db cart user fields t s' ↔
        SoFar db cart user fields t s ∧ Intact t cart fields s (.step t)) := by
  obtain ⟨-, hcommitting⟩ := committing_of_placed (m := .step t) hn hplaced
  have hcommitting : committing s t = true := hcommitting
  have hsome : ¬ NoHdel (s.world.log t) := noHdel_of_clears (Bool.and_eq_true_iff.1 hcommitting).2
  have hlog := World.log_cons_self hplaced.history
  have hsome' : ¬ NoHdel (s'.world.log t) := fun hnone ↦ by
    rw [hlog] at hnone
    exact hsome (noHdel_cons_iff.1 hnone).2
  have hended : (s'.prog t).next? = none := by
    have hnow := hpath.now
    rw [hlog] at hnow
    obtain ⟨reply, hreply, -⟩ := hnow.of_commit hsome
    rw [Program.result?_eq_some_iff.1 hreply]
    rfl
  have hgone : committing s' t = false := by
    rw [committing, hended]
    rfl
  have hlength : s.world.db.lines.length ≤ s'.world.db.lines.length := by
    rw [hplaced.lines, List.length_append]
    exact Nat.le_add_right _ _
  refine ⟨⟨.inr hpath, fun hnone ↦ absurd hnone hsome', fun _ ↦ ?_, fun hor ↦ ?_,
    h.length.trans hlength⟩, ?_⟩
  · rw [hplaced.carts]
    exact h.after hsome
  · rcases hor with hnone | hcomm
    · exact absurd hnone hsome'
    · exact absurd (hgone.symm.trans hcomm) (by decide)
  · -- from the hand into the tables
    have hrecorded : ∀ field count, Recorded db.lines.length user s'.world.db field count ↔
        Recorded db.lines.length user s.world.db field count ∨ HasTaken (s.world.log t) field count := by
      intro field count
      rw [hplaced.recorded_iff hlinked h.length, huser]
      simp only [true_and]
    have hsofar : SoFar db cart user fields t s' ↔ SoFar db cart user fields t s := by
      unfold SoFar InHand
      simp only [hplaced.carts, hrecorded, hgone, hcommitting, Bool.false_eq_true, true_and,
        false_and, or_false]
    refine hsofar.trans (iff_self_and.2 fun _ _ hany ↦ ?_)
    obtain ⟨c, r, l, hc, -, hevent⟩ := next_step_history hn
    cases (List.cons.inj (hevent.symm.trans hplaced.history)).1
    rw [hc] at hany
    cases hany

/-- **One move and the entries**: they are lost exactly by moves that are not intact. -/
theorem Course.next (h : Course db cart user fields t s) (hlinked : s.world.db.Linked)
    {now : LocalTime} {req : HttpRequest} (hreq : request t = .commit now req)
    (huser : req.user = some user) (hfields : req.fields = fields)
    (hothers : ∀ u, u ≠ t → (request u).user ≠ some user) (hn : (site ι).next s m = some s')
    (hpromise : Promise (noDiscipline request) m.process s.world s'.world) :
    Course db cart user fields t s' ∧
      (SoFar db cart user fields t s' ↔ SoFar db cart user fields t s ∧ Intact t cart fields s m) := by
  by_cases hm : m.process = t
  · cases m with
    | kill u =>
      obtain rfl : u = t := hm
      exact h.of_kill hn
    | step u =>
      obtain rfl : u = t := hm
      have hpath : Throughout (Event.mk u) (CommitPath u) (s'.prog u) (s'.world.log u) := by
        -- a killed checkout takes no step
        rcases h.path with hdead | hpath
        · obtain ⟨c, r, l, hc, -⟩ := next_step_history hn
          rw [hdead] at hc
          cases hc
        · exact hpath.next site_logs hn (by simp)
      obtain hquiet | ⟨c, hasks, -, hdb, hcarts, hhistory⟩ | ⟨receipt, hplaced⟩ :=
        hpromise.effect.commit_cases hreq
      · exact h.of_quiet hpath hn hquiet
      · obtain rfl := Option.some.inj (huser.symm.trans hasks.user)
        rw [hasks.ids_eq, hfields] at hcarts hhistory
        exact h.of_hdel hpath hn hdb hcarts hhistory
      · obtain ⟨-, hreceipt⟩ := Request.commit.inj (hreq.symm.trans hplaced.of.request)
        have hsame := hplaced.of.asks.user
        rw [← hreceipt, huser] at hsame
        exact h.of_placed hpath hn hlinked hplaced (Option.some.inj hsame).symm
  · have hpath : s'.prog t = .ret .error ∨
        Throughout (Event.mk t) (CommitPath t) (s'.prog t) (s'.world.log t) := by
      refine h.path.imp (fun hdead ↦ ?_) fun hpath ↦ hpath.next site_logs hn ?_
      · exact ((site ι).next_other hn fun heq ↦ hm heq.symm).1.trans hdead
      · rintro rfl
        exact hm rfl
    obtain ⟨hcourse, hiff⟩ := h.of_other hlinked hpath hn hm (hothers _ hm) hpromise
    refine ⟨hcourse, hiff.trans (iff_self_and.2 fun _ ↦ ?_)⟩
    cases m with
    | kill u => exact fun hu ↦ absurd hu hm
    | step u => exact fun hu ↦ absurd hu hm

end Step

/-! ### The run -/

end DailyFresh
