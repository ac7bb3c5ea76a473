/-
Btwattch2.Lib.Await — sequential computations that await answers from their
environment, and a calculus of what holds whatever the answers are.

A computation runs over a state `σ` and a tape of the answers its environment
will give, and logs observations. It can be abandoned at an await, which is what
happens when the tape ends there; an answer of a kind the await cannot take
abandons it too and stays on the tape, so a run that leaves the tape empty has
been answered in kind throughout.

`wp x Q E log s` says that `x`, started with this log and state, ends in `Q` or
is abandoned in `E`, for every tape. There is one rule for each way to build a
computation; `wp_loop` is the invariant rule of `loop`, and `loop_eq` says that
a loop whose body awaits something goes round as often as it has to.
-/
import Mathlib.Data.List.Basic

namespace Btwattch2.Lib

/-- Where a computation stands. -/
structure Stage (ι ω σ : Type) where
  tape : List ι
  log : List ω
  state : σ

/-- A computation over a state `σ` that awaits answers in `ι` and logs
observations in `ω`; `none` when it is abandoned. -/
def Await (ι ω σ α : Type) : Type := Stage ι ω σ → Option α × Stage ι ω σ

namespace Await

variable {ι ω σ τ α β : Type}

instance : Monad (Await ι ω σ) where
  pure a := fun s => (some a, s)
  bind x f := fun s =>
    match x s with
    | (some a, t) => f a t
    | (none, t) => (none, t)

def get : Await ι ω σ σ := fun s => (some s.state, s)

def modify (f : σ → σ) : Await ι ω σ Unit := fun s => (some (), { s with state := f s.state })

/-- Log an observation. -/
def observe (o : ω) : Await ι ω σ Unit := fun s => (some (), { s with log := s.log ++ [o] })

/-- Await the next answer, if it is of the kind `take` reads. -/
def await (take : ι → Option α) : Await ι ω σ α := fun s =>
  match s.tape with
  | [] => (none, s)
  | a :: rest =>
    match take a with
    | some x => (some x, { s with tape := rest })
    | none => (none, s)

/-- Run a computation on a part of the state. -/
def zoom (part : σ → τ) (put : τ → σ → σ) (x : Await ι ω τ α) : Await ι ω σ α := fun s =>
  let r := x ⟨s.tape, s.log, part s.state⟩
  (r.1, ⟨r.2.tape, r.2.log, put r.2.state s.state⟩)

/-- Run a computation on a state of its own. -/
def withState (init : τ) (x : Await ι ω τ α) : Await ι ω σ (α × τ) := fun s =>
  let r := x ⟨s.tape, s.log, init⟩
  (r.1.map fun a => (a, r.2.state), ⟨r.2.tape, r.2.log, s.state⟩)

/-- Cut a computation short: `none` when the answer to one of its awaits is that
its time is up. -/
def timeout (isUp : ι → Bool) (x : Await ι ω σ α) : Await ι ω σ (Option α) := fun s =>
  match x s with
  | (some a, t) => (some (some a), t)
  | (none, t) =>
    match t.tape with
    | [] => (none, t)
    | a :: rest => if isUp a then (some none, { t with tape := rest }) else (none, t)

def loopFor (body : Await ι ω σ (Option α)) : Nat → Await ι ω σ α
  | 0 => fun s => (none, s)
  | n + 1 => do
    match ← body with
    | some a => pure a
    | none => loopFor body n

/-- Repeat `body` until it yields a value. A body that awaits an answer every
time round is repeated at most once for each answer on the tape. -/
def loop (body : Await ι ω σ (Option α)) : Await ι ω σ α := fun s =>
  loopFor body (s.tape.length + 1) s

/-! ## Unfolding a loop -/

/-- Nothing is put back on the tape. -/
def Shrinks (x : Await ι ω σ α) : Prop := ∀ s, (x s).2.tape.length ≤ s.tape.length

/-- Where `x` goes on, it has taken an answer off the tape. -/
def Takes (x : Await ι ω σ α) : Prop :=
  ∀ s a, (x s).1 = some a → (x s).2.tape.length < s.tape.length

theorem shrinks_pure (a : α) : Shrinks (pure a : Await ι ω σ α) := fun _ => Nat.le_refl _

theorem shrinks_get : Shrinks (get : Await ι ω σ σ) := fun _ => Nat.le_refl _

theorem shrinks_modify (f : σ → σ) : Shrinks (modify f : Await ι ω σ Unit) := fun _ => Nat.le_refl _

theorem shrinks_observe (o : ω) : Shrinks (observe o : Await ι ω σ Unit) := fun _ => Nat.le_refl _

theorem shrinks_await (take : ι → Option α) : Shrinks (await take : Await ι ω σ α) := by
  intro s
  unfold await
  split
  · exact Nat.le_refl _
  case h_2 a rest htape =>
    rw [htape]
    split
    · exact Nat.le_succ _
    · exact Nat.le_of_eq (congrArg List.length htape)

theorem shrinks_bind {x : Await ι ω σ β} {f : β → Await ι ω σ α} (hx : Shrinks x)
    (hf : ∀ b, Shrinks (f b)) : Shrinks (x >>= f) := by
  intro s
  have hs := hx s
  simp only [bind]
  match h : x s with
  | (some b, t) =>
    rw [h] at hs
    exact Nat.le_trans (hf b t) hs
  | (none, t) =>
    rw [h] at hs
    exact hs

theorem takes_await (take : ι → Option α) : Takes (await take : Await ι ω σ α) := by
  intro s a ha
  unfold await at ha ⊢
  split at ha
  · cases ha
  case h_2 x rest htape =>
    split at ha
    · simp [htape]
    · cases ha

theorem takes_bind {x : Await ι ω σ β} {f : β → Await ι ω σ α} (hx : Takes x)
    (hf : ∀ b, Shrinks (f b)) : Takes (x >>= f) := by
  intro s a ha
  have hs := hx s
  simp only [bind] at ha ⊢
  match h : x s with
  | (some b, t) =>
    rw [h] at hs
    exact Nat.lt_of_le_of_lt (hf b t) (hs b rfl)
  | (none, t) =>
    rw [h] at ha
    cases ha

theorem loopFor_of_le {body : Await ι ω σ (Option α)} (h : Takes body) :
    ∀ (m n : Nat) (s : Stage ι ω σ), s.tape.length < m → s.tape.length < n →
      loopFor body m s = loopFor body n s
  | 0, _, _, hm, _ => absurd hm (Nat.not_lt_zero _)
  | _, 0, _, _, hn => absurd hn (Nat.not_lt_zero _)
  | m + 1, n + 1, s, hm, hn => by
    have hs := h s
    simp only [loopFor, bind]
    match hbody : body s with
    | (none, t) => rfl
    | (some (some a), t) => rfl
    | (some none, t) =>
      rw [hbody] at hs
      have ht : t.tape.length < s.tape.length := hs none rfl
      exact loopFor_of_le h m n t (by omega) (by omega)

/-- A loop whose body awaits something is its body followed by itself. -/
theorem loop_eq {body : Await ι ω σ (Option α)} (h : Takes body) (s : Stage ι ω σ) :
    loop body s = (body >>= fun r => r.elim (loop body) pure) s := by
  have hs := h s
  simp only [loop, loopFor, bind]
  match hbody : body s with
  | (none, t) => rfl
  | (some (some a), t) => rfl
  | (some none, t) =>
    rw [hbody] at hs
    have ht : t.tape.length < s.tape.length := hs none rfl
    exact loopFor_of_le h _ _ t ht (Nat.lt_succ_self _)

/-! ## What holds whatever the answers are -/

/-- `x` ends in `Q` or is abandoned in `E`, whatever it is answered. -/
def wp (x : Await ι ω σ α) (Q : α → List ω → σ → Prop) (E : List ω → σ → Prop) (log : List ω)
    (s : σ) : Prop :=
  ∀ tape, match x ⟨tape, log, s⟩ with
    | (some a, t) => Q a t.log t.state
    | (none, t) => E t.log t.state

variable {Q : α → List ω → σ → Prop} {E : List ω → σ → Prop} {log : List ω} {s : σ}

theorem wp_mono {Q' : α → List ω → σ → Prop} {E' : List ω → σ → Prop} {x : Await ι ω σ α}
    (h : wp x Q E log s) (hQ : ∀ a log s, Q a log s → Q' a log s)
    (hE : ∀ log s, E log s → E' log s) : wp x Q' E' log s := by
  intro tape
  have hx := h tape
  revert hx
  match x ⟨tape, log, s⟩ with
  | (some a, t) => exact hQ a _ _
  | (none, t) => exact hE _ _

theorem wp_and {Q' : α → List ω → σ → Prop} {E' : List ω → σ → Prop} {x : Await ι ω σ α}
    (h : wp x Q E log s) (h' : wp x Q' E' log s) :
    wp x (fun a log s => Q a log s ∧ Q' a log s) (fun log s => E log s ∧ E' log s) log s := by
  intro tape
  have hx := h tape
  have hx' := h' tape
  revert hx hx'
  match x ⟨tape, log, s⟩ with
  | (some a, t) => exact And.intro
  | (none, t) => exact And.intro

@[simp] theorem wp_pure {a : α} : wp (pure a : Await ι ω σ α) Q E log s ↔ Q a log s :=
  ⟨fun h => h [], fun h _ => h⟩

theorem wp_bind {x : Await ι ω σ β} {f : β → Await ι ω σ α}
    (h : wp x (fun b log s => wp (f b) Q E log s) E log s) : wp (x >>= f) Q E log s := by
  intro tape
  have hx := h tape
  revert hx
  simp only [bind]
  match x ⟨tape, log, s⟩ with
  | (some b, t) => exact fun hb => hb t.tape
  | (none, t) => exact id

@[simp] theorem wp_get {Q : σ → List ω → σ → Prop} :
    wp (get : Await ι ω σ σ) Q E log s ↔ Q s log s :=
  ⟨fun h => h [], fun h _ => h⟩

@[simp] theorem wp_modify {Q : Unit → List ω → σ → Prop} {f : σ → σ} :
    wp (modify f : Await ι ω σ Unit) Q E log s ↔ Q () log (f s) :=
  ⟨fun h => h [], fun h _ => h⟩

@[simp] theorem wp_observe {Q : Unit → List ω → σ → Prop} {o : ω} :
    wp (observe o : Await ι ω σ Unit) Q E log s ↔ Q () (log ++ [o]) s :=
  ⟨fun h => h [], fun h _ => h⟩

theorem wp_await {take : ι → Option α} (hE : E log s)
    (hQ : ∀ a x, take a = some x → Q x log s) : wp (await take : Await ι ω σ α) Q E log s := by
  intro tape
  match tape with
  | [] => exact hE
  | a :: rest =>
    simp only [await]
    cases h : take a with
    | none => exact hE
    | some x => exact hQ a x h

theorem wp_zoom {part : σ → τ} {put : τ → σ → σ} {x : Await ι ω τ α}
    (h : wp x (fun a log t => Q a log (put t s)) (fun log t => E log (put t s)) log (part s)) :
    wp (zoom part put x) Q E log s := by
  intro tape
  have hx := h tape
  revert hx
  simp only [zoom]
  match x ⟨tape, log, part s⟩ with
  | (some a, t) => exact id
  | (none, t) => exact id

/-- Time may be up wherever the computation is abandoned. -/
theorem wp_timeout {isUp : ι → Bool} {x : Await ι ω σ α} {Q : Option α → List ω → σ → Prop}
    (h : wp x (fun a => Q (some a)) (fun log s => E log s ∧ Q none log s) log s) :
    wp (timeout isUp x) Q E log s := by
  intro tape
  have hx := h tape
  revert hx
  simp only [timeout]
  match x ⟨tape, log, s⟩ with
  | (some a, t) => exact id
  | (none, ⟨[], _, _⟩) => exact And.left
  | (none, ⟨a :: rest, _, _⟩) =>
    rintro ⟨hE, hQ⟩
    cases hup : isUp a with
    | true => simpa [hup] using hQ
    | false => simpa [hup] using hE

/-- The invariant rule: `I` holds when the body starts, every time round. -/
theorem wp_loop {body : Await ι ω σ (Option α)} {I : List ω → σ → Prop} (hI : I log s)
    (hE : ∀ log s, I log s → E log s)
    (hbody : ∀ log s, I log s → wp body
      (fun r log s => match r with
        | some a => Q a log s
        | none => I log s) E log s) :
    wp (loop body) Q E log s := by
  have hfor : ∀ n log s, I log s → wp (loopFor body n) Q E log s := by
    intro n
    induction n with
    | zero => exact fun log s h tape => hE log s h
    | succ n ih =>
      intro log s h
      refine wp_bind (wp_mono (hbody log s h) ?_ fun _ _ h => h)
      rintro (_ | a) log s hr
      · exact ih log s hr
      · exact wp_pure.mpr hr
  exact fun tape => hfor _ log s hI tape

end Await

end Btwattch2.Lib
