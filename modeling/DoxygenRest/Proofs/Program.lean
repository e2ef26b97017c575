import DoxygenRest.Cursor.Edit
import Mathlib.Tactic.Common

/-!
# Running programs that edit

Edits of trees and cursors are programs that carry a state and may fail, the failure keeping the
state.  The lemmas of this file run such a program by one command.  Computations without a state that
may fail are taken apart in the same way.
-/

namespace DoxygenRest.Program

variable {ε σ α β : Type}

/-- What follows a program runs where the program succeeds. -/
lemma bind_apply (x : EStateM ε σ α) (f : α → EStateM ε σ β) (s : σ) :
    (x >>= f) s = match x s with
      | .ok a s => f a s
      | .error e s => .error e s := by
  cases h : x s <;> simp [bind, EStateM.bind, h]

/-- Behind a program that succeeds, the rest runs on its result. -/
lemma bind_ok {x : EStateM ε σ α} {s s' : σ} {a : α} (h : x s = .ok a s')
    (f : α → EStateM ε σ β) : (x >>= f) s = f a s' := by
  rw [bind_apply, h]

/-- Behind a program that fails, the rest does not run. -/
lemma bind_error {x : EStateM ε σ α} {s s' : σ} {e : ε} (h : x s = .error e s')
    (f : α → EStateM ε σ β) : (x >>= f) s = .error e s' := by
  rw [bind_apply, h]

@[simp] lemma pure_apply (a : α) (s : σ) : (pure a : EStateM ε σ α) s = .ok a s := rfl

@[simp] lemma throw_apply (e : ε) (s : σ) : (throw e : EStateM ε σ α) s = .error e s := rfl

@[simp] lemma get_apply (s : σ) : (get : EStateM ε σ σ) s = .ok s s := rfl

@[simp] lemma set_apply (s s' : σ) : (set s' : EStateM ε σ PUnit) s = .ok ⟨⟩ s' := rfl

@[simp] lemma modify_apply (f : σ → σ) (s : σ) : (modify f : EStateM ε σ PUnit) s = .ok ⟨⟩ (f s) :=
  rfl

@[simp] lemma get_bind_apply (f : σ → EStateM ε σ β) (s : σ) :
    ((get : EStateM ε σ σ) >>= f) s = f s s := rfl

@[simp] lemma modify_bind_apply (g : σ → σ) (f : PUnit → EStateM ε σ β) (s : σ) :
    ((modify g : EStateM ε σ PUnit) >>= f) s = f ⟨⟩ (g s) := rfl

@[simp] lemma set_bind_apply (s' : σ) (f : PUnit → EStateM ε σ β) (s : σ) :
    ((set s' : EStateM ε σ PUnit) >>= f) s = f ⟨⟩ s' := rfl

@[simp] lemma pure_bind_apply (a : α) (f : α → EStateM ε σ β) (s : σ) :
    ((pure a : EStateM ε σ α) >>= f) s = f a s := rfl

@[simp] lemma throw_bind_apply (e : ε) (f : α → EStateM ε σ β) (s : σ) :
    ((throw e : EStateM ε σ α) >>= f) s = .error e s := rfl

/-- It does not matter how the steps of a program are grouped. -/
@[simp] lemma bind_assoc_apply {γ : Type} (x : EStateM ε σ α) (f : α → EStateM ε σ β)
    (g : β → EStateM ε σ γ) (s : σ) :
    ((x >>= f) >>= g) s = (x >>= fun a => f a >>= g) s := by
  simp only [bind_apply]
  cases x s <;> rfl

/-- Two computations succeed one after the other if the first does and then the second. -/
lemma exists_of_bind_eq_ok {x : Except ε α} {f : α → Except ε β} {b : β}
    (h : (x >>= f) = .ok b) : ∃ a, x = .ok a ∧ f a = .ok b := by
  cases x with
  | error e => cases h
  | ok a => exact ⟨a, rfl, h⟩

/-- What is made of a result is made of a computation that succeeds. -/
lemma exists_of_map_eq_ok {x : Except ε α} {f : α → β} {b : β} (h : x.map f = .ok b) :
    ∃ a, x = .ok a ∧ f a = b := by
  cases x with
  | error e => cases h
  | ok a => exact ⟨a, rfl, Except.ok.inj h⟩

/-- What is not refused goes on. -/
lemma of_refuse_eq_ok {p : Prop} [Decidable p] {failure : ε} {x : Except ε α} {a : α}
    (h : (if p then .error failure else x) = .ok a) : ¬p ∧ x = .ok a := by
  split at h
  · cases h
  · next hp => exact ⟨hp, h⟩

/-- Two computations end alike: with the same failure, or with results that stand in a relation. -/
inductive EndAlike (r : α → β → Prop) : Except ε α → Except ε β → Prop
  | ok {a : α} {b : β} (h : r a b) : EndAlike r (.ok a) (.ok b)
  | error (failure : ε) : EndAlike r (.error failure) (.error failure)

/-- What is known of two results in addition to how they are related. -/
lemma EndAlike.imp {r r' : α → β → Prop} {x : Except ε α} {y : Except ε β} (h : EndAlike r x y)
    (himp : ∀ a b, x = .ok a → y = .ok b → r a b → r' a b) : EndAlike r' x y := by
  cases h with
  | ok h => exact ok (himp _ _ rfl rfl h)
  | error failure => exact error failure

/-- Computations that end alike go on to end alike if what follows does, for all related results. -/
lemma EndAlike.bind {γ δ : Type} {r : α → β → Prop} {r' : γ → δ → Prop} {x : Except ε α}
    {y : Except ε β} {f : α → Except ε γ} {g : β → Except ε δ} (h : EndAlike r x y)
    (hnext : ∀ a b, r a b → EndAlike r' (f a) (g b)) : EndAlike r' (x >>= f) (y >>= g) := by
  cases h with
  | ok h => exact hnext _ _ h
  | error failure => exact error failure

/-- Two computations that take in the same items end alike if each item leads from related states to
related states, or to the same failure. -/
lemma EndAlike.foldlM {γ : Type} {r : α → β → Prop} {f : α → γ → Except ε α}
    {g : β → γ → Except ε β} (hstep : ∀ a b c, r a b → EndAlike r (f a c) (g b c)) {a : α} {b : β}
    (h : r a b) (items : List γ) : EndAlike r (items.foldlM f a) (items.foldlM g b) := by
  induction items generalizing a b with
  | nil => exact ok h
  | cons item items ih =>
    rw [List.foldlM_cons, List.foldlM_cons]
    exact (hstep a b item h).bind fun a b h => ih h

/-- The results of programs can be compared, so that what a program does with a given state can be
decided. -/
instance decidableEqResult [DecidableEq ε] [DecidableEq σ] [DecidableEq α] :
    DecidableEq (EStateM.Result ε σ α)
  | .ok a s, .ok a' s' => decidable_of_iff (a = a' ∧ s = s') (by simp)
  | .error e s, .error e' s' => decidable_of_iff (e = e' ∧ s = s') (by simp)
  | .ok .., .error .. => isFalse (by simp)
  | .error .., .ok .. => isFalse (by simp)

end DoxygenRest.Program
