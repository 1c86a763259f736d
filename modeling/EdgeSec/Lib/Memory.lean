import EdgeSec.Lib.Checked

/-!
# Copies into fixed buffers, reads of counted buffers, and pointers that may be `NULL`

A C function that `memcpy`s or `sprintf`s into a buffer of fixed size, reads a counted number
of bytes from a buffer, or dereferences a pointer that may be `NULL`, either goes on, returns
its error value, or has undefined behaviour.  Such a function is modelled in `Except Stop`:
`Stop.fail` is the error value it returns (`NULL`, `-1`, `false`), `Stop.fault` the undefined
behaviour, with what caused it.

* `storeInto size src`: `src` written into a buffer of `size` elements;
* `loadFrom buf len`: the first `len` elements of a buffer holding `buf`;
* `deref p`: the value at a pointer, `none` being `NULL`.

## Main results

* `storeInto_eq_ok_iff`, `storeInto_of_le`, `loadFrom_of_le`: when a copy or a read goes on;
* `Faults`: a run that ends in undefined behaviour, and `faults_bind_iff`, `faults_of_fault` to
  find it inside a longer run.
-/

namespace EdgeSec.Memory

open Checked

/-- Undefined behaviour of a C function, with what caused it. -/
inductive MemFault
  /-- `len` elements written into a buffer of `size`. -/
  | overflow (size len : ℕ)
  /-- `len` elements read from a buffer that holds `size`. -/
  | overread (size len : ℕ)
  /-- A `NULL` pointer dereferenced. -/
  | nullDeref
  deriving Repr, DecidableEq

/-- Why a C function stopped before its end. -/
inductive Stop
  /-- It returned its error value. -/
  | fail
  /-- Its behaviour is undefined from here on. -/
  | fault (f : MemFault)
  deriving Repr, DecidableEq

variable {α β : Type}

/-- `src` copied into a buffer of `size` elements: what the buffer holds afterwards. -/
def storeInto (size : ℕ) (src : List α) : Except Stop (List α) :=
  if src.length ≤ size then .ok src else .error (.fault (.overflow size src.length))

/-- The first `len` elements of a buffer that holds `buf`. -/
def loadFrom (buf : List α) (len : ℕ) : Except Stop (List α) :=
  if len ≤ buf.length then .ok (buf.take len) else .error (.fault (.overread buf.length len))

/-- The value a pointer points to; `NULL` is `none`. -/
def deref : Option α → Except Stop α
  | some a => .ok a
  | none => .error (.fault .nullDeref)

/-- The run ends in undefined behaviour. -/
def Faults (r : Except Stop α) : Prop := ∃ f, r = .error (.fault f)

theorem storeInto_eq_ok_iff (size : ℕ) (src dst : List α) :
    storeInto size src = .ok dst ↔ src.length ≤ size ∧ dst = src := by
  unfold storeInto
  split
  · rename_i h
    simp only [Except.ok.injEq]
    exact ⟨fun e => ⟨h, e.symm⟩, fun e => e.2.symm⟩
  · rename_i h
    simp only [reduceCtorEq, false_iff, not_and]
    intro h'
    exact absurd h' h

@[simp] theorem storeInto_of_le {size : ℕ} {src : List α} (h : src.length ≤ size) :
    storeInto size src = .ok src := if_pos h

@[simp] theorem storeInto_of_lt {size : ℕ} {src : List α} (h : size < src.length) :
    storeInto size src = .error (.fault (.overflow size src.length)) := if_neg (by omega)

@[simp] theorem loadFrom_of_le {buf : List α} {len : ℕ} (h : len ≤ buf.length) :
    loadFrom buf len = .ok (buf.take len) := if_pos h

@[simp] theorem loadFrom_of_lt {buf : List α} {len : ℕ} (h : buf.length < len) :
    loadFrom buf len = .error (.fault (.overread buf.length len)) := if_neg (by omega)

@[simp] theorem deref_some (a : α) : deref (some a) = .ok a := rfl

@[simp] theorem deref_none : deref (none : Option α) = .error (.fault .nullDeref) := rfl

theorem faults_of_fault (f : MemFault) : Faults (.error (.fault f) : Except Stop α) := ⟨f, rfl⟩

/-- A run of two parts that goes on: both parts go on. -/
theorem bind_eq_ok {ε : Type} {x : Except ε α} {g : α → Except ε β} {b : β} :
    (x >>= g) = .ok b ↔ ∃ a, x = .ok a ∧ g a = .ok b := by
  cases x with
  | error e => simp [error_bind]
  | ok a => simp [ok_bind]

@[simp] theorem throw_eq_error {ε : Type} (e : ε) : (throw e : Except ε α) = .error e := rfl

theorem not_faults_fail : ¬ Faults (.error .fail : Except Stop α) := by
  rintro ⟨f, h⟩
  cases h

theorem not_faults_ok (a : α) : ¬ Faults (.ok a : Except Stop α) := by
  rintro ⟨f, h⟩
  cases h

/-- A run of two parts faults in its first part, or in its rest after the first went on. -/
theorem faults_bind_iff {x : Except Stop α} {g : α → Except Stop β} :
    Faults (x >>= g) ↔ Faults x ∨ ∃ a, x = .ok a ∧ Faults (g a) := by
  cases x with
  | error e =>
      rw [error_bind]
      constructor
      · rintro ⟨f, hf⟩
        cases hf
        exact .inl (faults_of_fault f)
      · rintro (⟨f, hf⟩ | ⟨a, ha, -⟩)
        · cases hf
          exact faults_of_fault f
        · cases ha
  | ok a =>
      rw [ok_bind]
      constructor
      · intro h
        exact .inr ⟨a, rfl, h⟩
      · rintro (h | ⟨b, hb, hg⟩)
        · exact absurd h (not_faults_ok a)
        · cases hb
          exact hg

/-- A run that ends by returning a value faults exactly when its first part does. -/
theorem faults_bind_pure_iff {x : Except Stop α} {f : α → β} :
    Faults (x >>= fun a => pure (f a)) ↔ Faults x := by
  rw [faults_bind_iff, or_iff_left]
  rintro ⟨a, -, h⟩
  exact not_faults_ok (f a) h

end EdgeSec.Memory
