import DailyFresh.Interleave.Paths
import DailyFresh.Site.CartViews
import Mathlib.Data.List.Infix

/-!
# Reading the history

The history of a world lists every command that was sent, by whom, and what was answered. `World.log`
is the part of one request, newest first. This module reads from a log what statements about checkout
speak of:

* `updateResults`: how many rows each of its conditional updates matched;
* `takenItems`: the items it took — the product id as the client spelled it, with the count that the
  cart had answered before;
* `NoHdel`: it has not yet deleted anything from a cart;
* `AllFit`: no column has refused an order that it saved;
* `Request.quantity`: the quantity that a cart request is going to write;
* `Undisturbed`: nobody else has sent anything since it began.
-/

namespace DailyFresh

open Python Store Interleave

variable {ι : Type}

namespace World

variable [DecidableEq ι] (w : World ι) (t : ι)

/-- What request `t` has sent, newest first. -/
def log : List (Event ι) := w.history.filter fun e ↦ e.process = t

@[simp] theorem log_record_self (c : Cmd) (r : c.Resp) :
    (w.record t c r).log t = ⟨t, c, r⟩ :: w.log t := by
  simp [log, record]

theorem log_record_of_ne {t u : ι} (h : u ≠ t) (c : Cmd) (r : c.Resp) :
    (w.record t c r).log u = w.log u := by
  simp [log, record, h.symm]

variable {w t}

theorem log_eq_of_history {w' : World ι} (h : w'.history = w.history) : w'.log t = w.log t := by
  rw [log, h, log]

theorem log_cons_self {w' : World ι} {c : Cmd} {r : c.Resp}
    (h : w'.history = ⟨t, c, r⟩ :: w.history) : w'.log t = ⟨t, c, r⟩ :: w.log t := by
  rw [log, h]
  simp [log]

theorem log_cons_of_ne {w' : World ι} {u : ι} (hu : u ≠ t) {c : Cmd} {r : c.Resp}
    (h : w'.history = ⟨t, c, r⟩ :: w.history) : w'.log u = w.log u := by
  rw [log, h]
  simp [log, hu.symm]

theorem log_suffix {w' : World ι} (h : w.history <:+ w'.history) : w.log t <:+ w'.log t :=
  h.filter _

theorem mem_log_iff {e : Event ι} : e ∈ w.log t ↔ e ∈ w.history ∧ e.process = t := by
  simp [log]

/-- Since its first command, nobody but `t` has sent one. -/
def Undisturbed (t : ι) (w : World ι) : Prop := w.log t <+: w.history

theorem undisturbed_cons_iff {w' : World ι} {c : Cmd} {r : c.Resp}
    (h : w'.history = ⟨t, c, r⟩ :: w.history) : Undisturbed t w' ↔ Undisturbed t w := by
  rw [Undisturbed, log_cons_self h, h, List.cons_prefix_cons]
  exact and_iff_right rfl

/-- What others have added to the history ends the undisturbed time of a request that has begun. -/
theorem Undisturbed.same_history {w' : World ι} (h : Undisturbed t w')
    (hsuffix : w.history <:+ w'.history) (hlog : w'.log t = w.log t) (hne : w.log t ≠ []) :
    w'.history = w.history := by
  obtain ⟨es, hes⟩ := hsuffix
  rw [Undisturbed, hlog, ← hes] at h
  rcases es with - | ⟨e, es⟩
  · exact hes.symm
  · -- the newest command is one of `t`, but `t`'s log has not grown
    exfalso
    obtain ⟨e', older, hcons⟩ := List.exists_cons_of_ne_nil hne
    rw [hcons, List.cons_append, List.cons_prefix_cons] at h
    have he : e.process = t := by
      have hmem : e' ∈ w.log t := hcons ▸ List.mem_cons_self
      exact h.1 ▸ (mem_log_iff.1 hmem).2
    have hlength := congrArg List.length hlog
    rw [log, ← hes, List.cons_append, List.filter_cons_of_pos (by simpa using he),
      List.filter_append, List.length_cons, List.length_append] at hlength
    have hrest : (w.log t).length = (w.history.filter fun e ↦ e.process = t).length := rfl
    omega

end World

/-- The site keeps the log of every request. -/
theorem site_logs [DecidableEq ι] : (site ι).Logs Event.mk fun t w ↦ w.log t where
  own hx := World.log_cons_self (exec_history hx)
  other hu hx := World.log_cons_of_ne hu (exec_history hx)
  abort _ := rfl

/-- Nothing has been deleted from a cart. -/
def NoHdel (es : List (Event ι)) : Prop :=
  ∀ e ∈ es, ∀ user fields, e.cmd ≠ .hdel user fields

theorem noHdel_nil : NoHdel ([] : List (Event ι)) := by
  simp [NoHdel]

theorem NoHdel.of_suffix {es es' : List (Event ι)} (h : NoHdel es') (hs : es <:+ es') : NoHdel es :=
  fun e he ↦ h e (hs.subset he)

theorem noHdel_cons_iff {e : Event ι} {es : List (Event ι)} :
    NoHdel (e :: es) ↔ (∀ user fields, e.cmd ≠ .hdel user fields) ∧ NoHdel es := by
  simp [NoHdel]

/-- Every order that was saved fits its columns. -/
def AllFit (es : List (Event ι)) : Prop :=
  ∀ e ∈ es, ∀ order, e.cmd = .orderSave order → order.row? ≠ none

theorem allFit_nil : AllFit ([] : List (Event ι)) := by
  simp [AllFit]

theorem allFit_cons_iff {e : Event ι} {es : List (Event ι)} :
    AllFit (e :: es) ↔ (∀ order, e.cmd = .orderSave order → order.row? ≠ none) ∧ AllFit es := by
  simp [AllFit]

theorem AllFit.cons {e : Event ι} {es : List (Event ι)} (h : AllFit es)
    (he : ∀ order, e.cmd ≠ .orderSave order) : AllFit (e :: es) :=
  allFit_cons_iff.2 ⟨fun order horder ↦ absurd horder (he order), h⟩

/-- The product id and the number of matched rows of a conditional update that did not raise. -/
def Event.matched : Event ι → Option (Str × ℕ)
  | ⟨_, .skuUpdate id .., .ok n⟩ => some (id, n)
  | _ => none

/-- The count that an `hget` answered. -/
def Event.counted : Event ι → Option ℤ
  | ⟨_, .hget .., count⟩ => count
  | _ => none

/-- How many rows the conditional updates matched, newest first. -/
def updateResults (es : List (Event ι)) : List ℕ :=
  es.filterMap fun e ↦ e.matched.map (·.2)

/-- The items taken, oldest first: the id of each conditional update that matched its row, with the
count read last before it. -/
def takenItems : List (Event ι) → List (Str × ℤ)
  | [] => []
  | e :: es =>
    match e.matched, es.findSome? Event.counted with
    | some (id, _ + 1), some count => takenItems es ++ [(id, count)]
    | _, _ => takenItems es

theorem updateResults_cons_of_matched {e : Event ι} {id : Str} {n : ℕ} (h : e.matched = some (id, n))
    (es : List (Event ι)) : updateResults (e :: es) = n :: updateResults es := by
  simp [updateResults, h]

theorem updateResults_cons_of_none {e : Event ι} (h : e.matched = none) (es : List (Event ι)) :
    updateResults (e :: es) = updateResults es := by
  simp [updateResults, h]

theorem takenItems_cons_of_taken {e : Event ι} {id : Str} {n : ℕ} {count : ℤ}
    {es : List (Event ι)} (h : e.matched = some (id, n + 1))
    (hcount : es.findSome? Event.counted = some count) :
    takenItems (e :: es) = takenItems es ++ [(id, count)] := by
  simp [takenItems, h, hcount]

theorem takenItems_cons_of_lost {e : Event ι} {id : Str} (h : e.matched = some (id, 0))
    (es : List (Event ι)) : takenItems (e :: es) = takenItems es := by
  simp [takenItems, h]

theorem takenItems_cons_of_none {e : Event ι} (h : e.matched = none) (es : List (Event ι)) :
    takenItems (e :: es) = takenItems es := by
  simp [takenItems, h]

/-- The counts of the items taken are counts that the cart has answered. -/
theorem counted_of_mem_takenItems {es : List (Event ι)} {x : Str × ℤ} (h : x ∈ takenItems es) :
    ∃ e ∈ es, e.counted = some x.2 := by
  induction es with
  | nil => cases h
  | cons e es ih =>
    rw [takenItems] at h
    split at h
    · rename_i id n count _ hcount
      rcases List.mem_append.1 h with h | h
      · obtain ⟨e', he', hcounted⟩ := ih h
        exact ⟨e', List.mem_cons_of_mem _ he', hcounted⟩
      · obtain rfl := List.mem_singleton.1 h
        obtain ⟨e', he', hcounted⟩ := List.exists_of_findSome?_eq_some hcount
        exact ⟨e', List.mem_cons_of_mem _ he', hcounted⟩
    · obtain ⟨e', he', hcounted⟩ := ih h
      exact ⟨e', List.mem_cons_of_mem _ he', hcounted⟩

/-- The quantity that a cart request is about to write: the count of its form and, for an addition,
the count that the cart has answered. -/
def Request.quantity (es : List (Event ι)) : Request → Option ℤ
  | cartAdd request => do
    let count ← (request.POST "count".toList).bind int
    some (count + (es.findSome? Event.counted).getD 0)
  | cartUpdate request => (request.POST "count".toList).bind int
  | _ => none

/-- A cart request that writes this field of this user's cart, if it writes. -/
def Request.Writes (user : ℕ) (field : Str) : Request → Prop
  | cartAdd request => request.user = some user ∧ request.POST "sku_id".toList = some field
  | cartUpdate request => request.user = some user ∧ request.POST "sku_id".toList = some field
  | _ => False

/-- Some item has been given up: two conditional updates in a row matched no row. -/
def LostTwice (results : List ℕ) : Prop := [0, 0] <:+: results

theorem LostTwice.cons {results : List ℕ} (h : LostTwice results) (n : ℕ) :
    LostTwice (n :: results) :=
  h.trans (List.suffix_cons n results).isInfix

theorem lostTwice_zero_zero (results : List ℕ) : LostTwice (0 :: 0 :: results) :=
  ⟨[], results, rfl⟩

/-- What is known of a command that changed neither the tables nor a cart, in the world before it: it is
no write to a cart; a commit of nothing, and the save of an order that does not fit, come from a request
that has not deleted anything from a cart; and the answer of a cart is its entry. -/
@[simp] def Event.Plain [DecidableEq ι] (w : World ι) : Event ι → Prop
  | ⟨_, .hset .., _⟩ => False
  | ⟨_, .hdel .., _⟩ => False
  | ⟨t, .commit, _⟩ => NoHdel (w.log t)
  | ⟨t, .orderSave order, _⟩ => order.row? = none → NoHdel (w.log t)
  | ⟨_, .hget user field, count⟩ => count = (w.carts user).lookup field
  | _ => True

theorem Event.Plain.not_hdel [DecidableEq ι] {w : World ι} {e : Event ι} (h : e.Plain w) (user : ℕ)
    (fields : List Str) : e.cmd ≠ .hdel user fields := by
  rintro hcmd
  obtain ⟨t, c, r⟩ := e
  obtain rfl : c = .hdel user fields := hcmd
  exact h

end DailyFresh
