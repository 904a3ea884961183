import Mathlib.Control.Monad.Basic

/-!
# Programs over a command signature

A **program** is a sequential request handler seen from outside: at every point it has either
returned, or it is about to send one command to its environment and will continue with whatever
the environment answers. Commands and the type of each command's answer come from a `Signature`;
what a command *does* is left to a machine (`Interleave.System`), so the same program can be run
alone, or interleaved with any number of others.

Two constructors send a command. `call` sends it once. `poll` sends it again and again as long as
a test on the answer says so; it is the one loop whose length the program does not control, and
keeping it a constructor leaves `Program` an inductive type, on which functions and proofs recurse.

* `Program.bind` and the `Monad` instance give `do` notation;
* `Program.next?` is the command a program is about to send, and `Program.result?` what it has
  returned.
-/

namespace Interleave

/-- A command signature: the commands, and for each command the type of its answers. -/
structure Signature where
  /-- The commands. -/
  Cmd : Type
  /-- The answers to a command. -/
  Resp : Cmd → Type

/-- A sequential program over the signature `S` with results in `α`. -/
inductive Program (S : Signature) (α : Type) : Type where
  /-- The program has returned. -/
  | ret (a : α)
  /-- Send `c` once and continue with the answer. -/
  | call (c : S.Cmd) (k : S.Resp c → Program S α)
  /-- Send `c` until the answer fails the test `again`, and continue with that answer. -/
  | poll (c : S.Cmd) (again : S.Resp c → Bool) (k : S.Resp c → Program S α)

namespace Program

variable {S : Signature} {α β γ : Type}

/-- Sequencing: run the first program to its result and continue from there. -/
def bind : Program S α → (α → Program S β) → Program S β
  | ret a, f => f a
  | call c k, f => call c fun r ↦ (k r).bind f
  | poll c again k, f => poll c again fun r ↦ (k r).bind f

instance : Monad (Program S) where
  pure := ret
  bind := bind

/-- The command that is sent next. -/
def next? : Program S α → Option S.Cmd
  | ret _ => none
  | call c _ => some c
  | poll c _ _ => some c

/-- The result, if the program has returned. -/
def result? : Program S α → Option α
  | ret a => some a
  | call _ _ => none
  | poll _ _ _ => none

theorem result?_eq_some_iff {p : Program S α} {a : α} : p.result? = some a ↔ p = ret a := by
  cases p with
  | ret b => simp [result?]
  | call c k => simp [result?]
  | poll c again k => simp [result?]

/-- Send one command and return its answer. -/
def send (c : S.Cmd) : Program S (S.Resp c) :=
  call c ret

@[simp] theorem pure_eq (a : α) : (pure a : Program S α) = ret a := rfl

@[simp] theorem ret_bind (a : α) (f : α → Program S β) : (ret a : Program S α) >>= f = f a := rfl

@[simp] theorem call_bind (c : S.Cmd) (k : S.Resp c → Program S α) (f : α → Program S β) :
    call c k >>= f = call c fun r ↦ k r >>= f := rfl

@[simp] theorem poll_bind (c : S.Cmd) (again : S.Resp c → Bool) (k : S.Resp c → Program S α)
    (f : α → Program S β) : poll c again k >>= f = poll c again fun r ↦ k r >>= f := rfl

@[simp] theorem send_bind (c : S.Cmd) (f : S.Resp c → Program S β) :
    send c >>= f = call c f := rfl

/-- A program that has not returned has not returned before what follows it either. -/
theorem result?_bind_of_none {p : Program S α} (h : p.result? = none) (f : α → Program S β) :
    (p >>= f).result? = none := by
  cases p with
  | ret a => cases h
  | call c k => rfl
  | poll c again k => rfl

theorem bind_assoc' (p : Program S α) (f : α → Program S β) (g : β → Program S γ) :
    p >>= f >>= g = p >>= fun a ↦ f a >>= g := by
  induction p with
  | ret a => rfl
  | call c k ih =>
    rw [call_bind, call_bind, call_bind]
    exact congrArg _ (funext ih)
  | poll c again k ih =>
    rw [poll_bind, poll_bind, poll_bind]
    exact congrArg _ (funext ih)

theorem bind_ret (p : Program S α) : p >>= ret = p := by
  induction p with
  | ret a => rfl
  | call c k ih => exact congrArg _ (funext ih)
  | poll c again k ih => exact congrArg _ (funext ih)

instance : LawfulMonad (Program S) :=
  LawfulMonad.mk' _ bind_ret (fun _ _ ↦ rfl) bind_assoc'

end Program

end Interleave
