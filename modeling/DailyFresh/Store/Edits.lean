import Mathlib.Data.List.Induction
import Mathlib.Data.List.Basic

/-!
# Editing one column in place

A `Lens` is a column of a row that can be read and written. `Lens.editAll` makes a list of edits — at a
place, a value — one after another to the rows of a table; what stands at a place afterwards is the row
with the value of the last edit there (`getElem?_editAll`), so the table is what it was exactly if the
last edit of every place has written the old value (`editAll_eq_self_iff`).
-/

namespace Store

/-- A column of a row. -/
structure Lens (R V : Type) where
  get : R → V
  put : R → V → R
  get_put : ∀ r v, get (put r v) = v
  put_get : ∀ r, put r (get r) = r
  put_put : ∀ r v v', put (put r v) v' = put r v'

variable {R V K : Type}

/-- The value of the last edit at a place. -/
def lastEdit (edits : List (ℕ × V)) (i : ℕ) : Option V :=
  (edits.reverse.find? fun e ↦ e.1 = i).map (·.2)

theorem lastEdit_concat (edits : List (ℕ × V)) (e : ℕ × V) (i : ℕ) :
    lastEdit (edits ++ [e]) i = if e.1 = i then some e.2 else lastEdit edits i := by
  rw [lastEdit, List.reverse_append, List.reverse_singleton, List.singleton_append, List.find?_cons]
  by_cases he : e.1 = i
  · simp [he]
  · simp [he, lastEdit]

theorem lastEdit_eq_none {edits : List (ℕ × V)} {i : ℕ} (h : i ∉ edits.map (·.1)) :
    lastEdit edits i = none := by
  rw [lastEdit, Option.map_eq_none_iff, List.find?_eq_none]
  intro e he hi
  exact h (List.mem_map.2 ⟨e, List.mem_reverse.1 he, of_decide_eq_true hi⟩)

/-- If no place is edited twice, every edit is the last one. -/
theorem lastEdit_of_mem {edits : List (ℕ × V)} (hnodup : (edits.map (·.1)).Nodup) {i : ℕ} {v : V}
    (h : (i, v) ∈ edits) : lastEdit edits i = some v := by
  induction edits using List.reverseRecOn with
  | nil => cases h
  | append_singleton edits e ih =>
    rw [List.map_append, List.nodup_append] at hnodup
    obtain ⟨hnodup, -, hdisjoint⟩ := hnodup
    rw [lastEdit_concat]
    rcases List.mem_append.1 h with h | h
    · have hne : e.1 ≠ i := fun he ↦
        hdisjoint i (List.mem_map_of_mem (f := (·.1)) h) e.1 (List.mem_singleton_self _) he.symm
      rw [if_neg hne, ih hnodup h]
    · obtain rfl := List.mem_singleton.1 h
      exact if_pos rfl

namespace Lens

variable (L : Lens R V)

/-- The row with a value, if there is one, in the column. -/
def put? (r : R) : Option V → R
  | some v => L.put r v
  | none => r

/-- Make the edits, from left to right. -/
def editAll (rows : List R) (edits : List (ℕ × V)) : List R :=
  edits.foldl (fun rows e ↦ rows.modify e.1 (L.put · e.2)) rows

@[simp] theorem editAll_nil (rows : List R) : L.editAll rows [] = rows := rfl

theorem editAll_cons (rows : List R) (e : ℕ × V) (edits : List (ℕ × V)) :
    L.editAll rows (e :: edits) = L.editAll (rows.modify e.1 (L.put · e.2)) edits := rfl

theorem editAll_concat (rows : List R) (edits : List (ℕ × V)) (e : ℕ × V) :
    L.editAll rows (edits ++ [e]) = (L.editAll rows edits).modify e.1 (L.put · e.2) := by
  rw [editAll, List.foldl_append, List.foldl_cons, List.foldl_nil, editAll]

/-- **The last edit of a place counts.** -/
theorem getElem?_editAll (rows : List R) (edits : List (ℕ × V)) (i : ℕ) :
    (L.editAll rows edits)[i]? = rows[i]?.map fun r ↦ L.put? r (lastEdit edits i) := by
  induction edits using List.reverseRecOn with
  | nil => simp [lastEdit, put?]
  | append_singleton edits e ih =>
    rw [editAll_concat, List.getElem?_modify, ih, lastEdit_concat, Option.map_eq_map, Option.map_map]
    refine congrArg (Option.map · _) (funext fun r ↦ ?_)
    show (if e.1 = i then L.put (L.put? r (lastEdit edits i)) e.2 else _) = _
    by_cases he : e.1 = i
    · rw [if_pos he, if_pos he]
      rcases lastEdit edits i with - | v
      · rfl
      · exact L.put_put ..
    · rw [if_neg he, if_neg he]

/-- **When the edits change nothing**: the last one of every place has written the old value. -/
theorem editAll_eq_self_iff (rows : List R) (edits : List (ℕ × V)) :
    L.editAll rows edits = rows ↔
      ∀ i v r, lastEdit edits i = some v → rows[i]? = some r → L.get r = v := by
  constructor
  · intro h i v r hlast hr
    have hrow := L.getElem?_editAll rows edits i
    rw [h, hr, hlast, Option.map_some] at hrow
    have hput : r = L.put r v := Option.some.inj hrow
    rw [hput, L.get_put]
  · intro h
    refine List.ext_getElem? fun i ↦ ?_
    rw [getElem?_editAll]
    rcases hr : rows[i]? with - | r
    · rfl
    rw [Option.map_some]
    rcases hlast : lastEdit edits i with - | v
    · rfl
    · show some (L.put r v) = some r
      rw [← h i v r hlast hr, L.put_get]

/-- The same, as seen in the column itself. -/
theorem map_get_editAll_eq_iff (rows : List R) (edits : List (ℕ × V)) :
    (L.editAll rows edits).map L.get = rows.map L.get ↔
      ∀ i v r, lastEdit edits i = some v → rows[i]? = some r → L.get r = v := by
  constructor
  · intro h i v r hlast hr
    have hvalue := congrArg (·[i]?) h
    simp only [List.getElem?_map, getElem?_editAll, hr, hlast, Option.map_some, put?, L.get_put] at hvalue
    exact (Option.some.inj hvalue).symm
  · intro h
    rw [(L.editAll_eq_self_iff rows edits).2 h]

/-- What does not look at the column stays. -/
theorem map_editAll (key : R → K) (hkey : ∀ r v, key (L.put r v) = key r) (rows : List R)
    (edits : List (ℕ × V)) : (L.editAll rows edits).map key = rows.map key := by
  refine List.ext_getElem? fun i ↦ ?_
  rw [List.getElem?_map, List.getElem?_map, getElem?_editAll, Option.map_map]
  refine congrArg (Option.map · _) (funext fun r ↦ ?_)
  show key (L.put? r (lastEdit edits i)) = key r
  rcases lastEdit edits i with - | v
  · rfl
  · exact hkey ..

/-- The rows with a property that does not look at the column: each has its last edit. -/
theorem filter_editAll (p : R → Bool) (hp : ∀ r v, p (L.put r v) = p r) (rows : List R)
    (edits : List (ℕ × V)) : (L.editAll rows edits).filter p =
      (rows.zipIdx.filter fun x ↦ p x.1).map fun x ↦ L.put? x.1 (lastEdit edits x.2) := by
  have hall : L.editAll rows edits = rows.zipIdx.map fun x ↦ L.put? x.1 (lastEdit edits x.2) := by
    refine List.ext_getElem? fun i ↦ ?_
    rw [getElem?_editAll, List.getElem?_map, List.getElem?_zipIdx, Option.map_map, Nat.zero_add]
    rfl
  rw [hall, List.filter_map]
  refine congrArg (List.map _) (List.filter_congr fun x _ ↦ ?_)
  show p (L.put? x.1 (lastEdit edits x.2)) = p x.1
  rcases lastEdit edits x.2 with - | v
  · rfl
  · exact hp ..

end Lens

end Store
