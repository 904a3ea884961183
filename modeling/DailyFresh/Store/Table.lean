import Mathlib.Data.Option.Basic
import Mathlib.Logic.Function.Basic

/-!
# Tables, pending writes and row locks

A table is a partial map from primary keys to rows. A transaction that has not committed keeps its
writes to itself: what it reads is its own pending writes **overlaid** on the committed table, and
committing it puts that overlay in place of the table. A lock table says, for each key, which
transaction holds the row; a key nobody else holds is `free` for a transaction, which may then
`acquire` it, and a transaction that ends gives up all it holds with `release`.

Reading through `overlay` what others have committed in the meantime, and keeping locks to the end of
the transaction, is isolation level READ COMMITTED with two-phase row locks for writers.
-/

namespace Store

variable {K R ι : Type}

/-- A table: rows by primary key. -/
abbrev Table (K R : Type) := K → Option R

namespace Table

/-- The table without rows. -/
def empty : Table K R := fun _ ↦ none

@[simp] theorem empty_apply (k : K) : (empty : Table K R) k = none := rfl

/-- The rows of `pending` where it has one, and otherwise those of `base`. -/
def overlay (pending base : Table K R) : Table K R := fun k ↦ (pending k).or (base k)

theorem overlay_apply (pending base : Table K R) (k : K) :
    overlay pending base k = (pending k).or (base k) := rfl

@[simp] theorem overlay_empty (base : Table K R) : overlay empty base = base := rfl

theorem overlay_of_none {pending base : Table K R} {k : K} (h : pending k = none) :
    overlay pending base k = base k := by
  rw [overlay_apply, h, Option.none_or]

theorem overlay_of_some {pending base : Table K R} {k : K} {r : R} (h : pending k = some r) :
    overlay pending base k = some r := by
  rw [overlay_apply, h, Option.some_or]

/-- Pending writes delete no row. -/
theorem exists_overlay {base : Table K R} {k : K} {r : R} (h : base k = some r) (pending : Table K R) :
    ∃ r', overlay pending base k = some r' := by
  rcases hk : pending k with - | r'
  · exact ⟨r, (overlay_of_none hk).trans h⟩
  · exact ⟨r', overlay_of_some hk⟩

/-- Every row of the first table stands in the second. -/
def Sub (tbl tbl' : Table K R) : Prop := ∀ k r, tbl k = some r → tbl' k = some r

theorem Sub.refl (tbl : Table K R) : Sub tbl tbl := fun _ _ ↦ id

theorem Sub.trans {tbl₁ tbl₂ tbl₃ : Table K R} (h₁ : Sub tbl₁ tbl₂) (h₂ : Sub tbl₂ tbl₃) :
    Sub tbl₁ tbl₃ := fun k r h ↦ h₂ k r (h₁ k r h)

variable [DecidableEq K]

/-- Write the row `r` under the key `k`. -/
def set (tbl : Table K R) (k : K) (r : R) : Table K R := Function.update tbl k (some r)

@[simp] theorem set_self (tbl : Table K R) (k : K) (r : R) : tbl.set k r k = some r :=
  Function.update_self ..

theorem set_of_ne {tbl : Table K R} {k k' : K} {r : R} (h : k' ≠ k) : tbl.set k r k' = tbl k' :=
  Function.update_of_ne h ..

theorem set_set (tbl : Table K R) (k : K) (r r' : R) : (tbl.set k r).set k r' = tbl.set k r' :=
  Function.update_idem ..

/-- Writing to the pending rows writes to the overlay. -/
theorem overlay_set (pending base : Table K R) (k : K) (r : R) :
    overlay (pending.set k r) base = (overlay pending base).set k r := by
  funext k'
  by_cases hk : k' = k
  · subst hk
    rw [set_self, overlay_of_some (set_self ..)]
  · rw [set_of_ne hk, overlay_apply, set_of_ne hk, overlay_apply]

end Table

/-! ### Row locks -/

/-- Who holds which row. -/
abbrev Locks (K ι : Type) := K → Option ι

namespace Locks

variable [DecidableEq ι]

/-- Nobody other than `t` holds `k`. -/
def free (locks : Locks K ι) (t : ι) (k : K) : Bool :=
  locks k == none || locks k == some t

theorem free_iff {locks : Locks K ι} {t : ι} {k : K} :
    locks.free t k = true ↔ ∀ u, u ≠ t → locks k ≠ some u := by
  rcases h : locks k with - | v
  · simp [free, h]
  · have hfree : locks.free t k = true ↔ v = t := by simp [free, h]
    rw [hfree]
    constructor
    · rintro rfl u hu hvu
      exact hu (Option.some.inj hvu).symm
    · exact fun hu ↦ by_contra fun hv ↦ hu v hv rfl

/-- Everything `t` holds is given up. -/
def release (locks : Locks K ι) (t : ι) : Locks K ι :=
  fun k ↦ if locks k = some t then none else locks k

/-- Nobody else's locks change when `t` releases its own. -/
theorem release_eq_some_iff {locks : Locks K ι} {t u : ι} (hu : u ≠ t) {k : K} :
    locks.release t k = some u ↔ locks k = some u := by
  unfold release
  split
  · rename_i h
    rw [h]
    exact ⟨fun h ↦ absurd h (by simp), fun h ↦ absurd (Option.some.inj h).symm hu⟩
  · exact Iff.rfl

variable [DecidableEq K]

/-- `t` takes the row `k`. -/
def acquire (locks : Locks K ι) (t : ι) (k : K) : Locks K ι := Function.update locks k (some t)

omit [DecidableEq ι] in
@[simp] theorem acquire_self (locks : Locks K ι) (t : ι) (k : K) :
    locks.acquire t k k = some t := Function.update_self ..

omit [DecidableEq ι] in
theorem acquire_of_ne {locks : Locks K ι} {t : ι} {k k' : K} (h : k' ≠ k) :
    locks.acquire t k k' = locks k' := Function.update_of_ne h ..

omit [DecidableEq ι] in
/-- A lock is kept when its holder takes another. -/
theorem acquire_of_held {locks : Locks K ι} {t : ι} {k k' : K} (h : locks k' = some t) :
    locks.acquire t k k' = some t := by
  by_cases hk : k' = k
  · subst hk; exact acquire_self ..
  · rw [acquire_of_ne hk, h]

/-- Nobody else's locks change when `t` takes a row that was free for it. -/
theorem acquire_eq_some_iff {locks : Locks K ι} {t u : ι} {k : K} (hfree : locks.free t k = true)
    (hu : u ≠ t) {k' : K} : locks.acquire t k k' = some u ↔ locks k' = some u := by
  by_cases hk : k' = k
  · subst hk
    rw [acquire_self]
    exact ⟨fun h ↦ absurd (Option.some.inj h).symm hu, fun h ↦ absurd h (free_iff.1 hfree u hu)⟩
  · rw [acquire_of_ne hk]

end Locks

end Store
