/-
Btwattch2.Lib.Calls — computations that make calls, and what it means that one
carries out another.

A call awaits its answer and is logged with it. A monitor moves with every call, and
`Obeys step law start log` says that each call obeys a law of what the monitor has
seen before it (`wp_call_seen` is its rule). `Simulates erase rel x y` says of a
computation `y` over coarser answers that `x` carries it out: where `x` returns,
`y` returns too when it is answered with what the calls of `x` amount to, each
erased to an answer of `y` or to nothing, and takes them all. There is a rule for
each way to build a computation, on either side.
-/
import Btwattch2.Lib.Log
import Btwattch2.Lib.Tape

namespace Btwattch2.Lib.Await

variable {ι ω σ τ ι' ω' σ' α β γ δ : Type}

/-- Make a call: await its answer, and log what was called with it. -/
def call (take : ι → Option α) (made : α → ω) : Await ι ω σ α := do
  let result ← await take
  observe (made result)
  pure result

theorem bind_assoc (x : Await ι ω σ α) (f : α → Await ι ω σ β) (g : β → Await ι ω σ γ) :
    (x >>= f) >>= g = x >>= fun a => f a >>= g := by
  funext s
  simp only [bind]
  match x s with
  | (some a, t) => rfl
  | (none, t) => rfl

theorem bind_pure (x : Await ι ω σ α) : x >>= pure = x := by
  funext s
  simp only [bind]
  match h : x s with
  | (some a, t) => rfl
  | (none, t) => rfl

theorem bind_some {x : Await ι ω σ α} {f : α → Await ι ω σ β} {s u : Stage ι ω σ} {b : β}
    (h : (x >>= f) s = (some b, u)) : ∃ a t, x s = (some a, t) ∧ f a t = (some b, u) := by
  simp only [bind] at h
  match hx : x s with
  | (some a, t) =>
    rw [hx] at h
    exact ⟨a, t, rfl, h⟩
  | (none, t) =>
    rw [hx] at h
    cases h

theorem bind_eq_some {x : Await ι ω σ α} {f : α → Await ι ω σ β} {s t : Stage ι ω σ} {a : α}
    (h : x s = (some a, t)) : (x >>= f) s = f a t := by
  simp only [bind, h]

theorem call_some {take : ι → Option α} {made : α → ω} {s t : Stage ι ω σ} {a : α}
    (h : call take made s = (some a, t)) :
    ∃ answer rest, s.tape = answer :: rest ∧ take answer = some a ∧
      t = ⟨rest, s.log ++ [made a], s.state⟩ := by
  obtain ⟨a', t', hawait, hrest⟩ := bind_some h
  unfold await at hawait
  split at hawait
  · cases hawait
  case h_2 answer rest htape =>
    split at hawait
    case h_1 x htake =>
      cases hawait
      cases hrest
      exact ⟨answer, rest, htape, htake, rfl⟩
    case h_2 => cases hawait

/-! ## What holds of a call -/

section Wp

variable {Q : α → List ω → σ → Prop} {E : List ω → σ → Prop} {log : List ω} {s : σ}

theorem wp_call {take : ι → Option α} {made : α → ω} (hE : E log s)
    (hQ : ∀ a, Q a (log ++ [made a]) s) : wp (call take made : Await ι ω σ α) Q E log s :=
  wp_bind (wp_await hE fun _ a _ => wp_bind (wp_observe.mpr (wp_pure.mpr (hQ a))))

/-- A computation is followed from what holds after its first part. -/
theorem wp_seq {x : Await ι ω σ β} {f : β → Await ι ω σ α} {R : β → List ω → σ → Prop}
    (hx : wp x R E log s) (hf : ∀ b log s, R b log s → wp (f b) Q E log s) :
    wp (x >>= f) Q E log s :=
  wp_bind (wp_mono hx hf fun _ _ h => h)

theorem wp_withState {init : τ} {x : Await ι ω τ α} {Q : α × τ → List ω → σ → Prop}
    (h : wp x (fun a log t => Q (a, t) log s) (fun log _ => E log s) log init) :
    wp (withState init x) Q E log s := by
  intro tape
  have hx := h tape
  revert hx
  simp only [withState]
  match x ⟨tape, log, init⟩ with
  | (some a, t) => exact id
  | (none, t) => exact id

end Wp

/-! ## Computations that leave the state alone -/

def Stateless (x : Await ι ω σ α) : Prop := ∀ s, (x s).2.state = s.state

theorem stateless_pure (a : α) : Stateless (pure a : Await ι ω σ α) := fun _ => rfl

theorem stateless_bind {x : Await ι ω σ β} {f : β → Await ι ω σ α} (hx : Stateless x)
    (hf : ∀ b, Stateless (f b)) : Stateless (x >>= f) := by
  intro s
  have hs := hx s
  simp only [bind]
  match h : x s with
  | (some b, t) =>
    rw [h] at hs
    exact (hf b t).trans hs
  | (none, t) =>
    rw [h] at hs
    exact hs

theorem stateless_call {take : ι → Option α} {made : α → ω} :
    Stateless (call take made : Await ι ω σ α) := by
  refine stateless_bind (fun s => ?_) fun a => stateless_bind (fun _ => rfl) fun _ => stateless_pure a
  unfold await
  split
  · rfl
  · split <;> rfl

theorem wp_stateless {x : Await ι ω σ α} {Q : α → List ω → σ → Prop} {E : List ω → σ → Prop}
    {log : List ω} {s : σ} (hx : Stateless x) (h : wp x Q E log s) :
    wp x (fun a log s' => s' = s ∧ Q a log s') E log s := by
  intro tape
  have hs := hx ⟨tape, log, s⟩
  have hwp := h tape
  revert hs hwp
  match x ⟨tape, log, s⟩ with
  | (some a, t) => exact And.intro
  | (none, t) => exact fun _ hE => hE

/-! ## A monitor over the calls -/

section Monitor

variable {μ : Type} {step : μ → ω → μ} {law : μ → ω → Prop} {start m : μ} {log : List ω} {s : σ}

/-- Every call obeys the law of what the monitor has seen before it. -/
def Obeys (step : μ → ω → μ) (law : μ → ω → Prop) (start : μ) (log : List ω) : Prop :=
  Always (fun pre => law (pre.foldl step start)) log

/-- The law was obeyed, and this is what the monitor has seen. -/
def Seen (step : μ → ω → μ) (law : μ → ω → Prop) (start m : μ) (log : List ω) : Prop :=
  Obeys step law start log ∧ log.foldl step start = m

theorem seen_nil : Seen step law start start [] := ⟨always_nil, rfl⟩

theorem Seen.concat {o : ω} (h : Seen step law start m log) (ho : law m o) :
    Seen step law start (step m o) (log ++ [o]) := by
  obtain ⟨hobeys, rfl⟩ := h
  exact ⟨always_concat.mpr ⟨hobeys, ho⟩, by simp⟩

/-- A call that obeys the law moves the monitor. -/
theorem wp_call_seen {take : ι → Option α} {made : α → ω} {Q : α → List ω → σ → Prop}
    (h : Seen step law start m log) (hlaw : ∀ a, law m (made a))
    (hQ : ∀ a log, Seen step law start (step m (made a)) log → Q a log s) :
    wp (call take made : Await ι ω σ α) Q (fun log _ => Obeys step law start log) log s :=
  wp_call h.1 fun a => hQ a _ (h.concat (hlaw a))

end Monitor

theorem confined_call {takes : ι → Prop} {logs : ω → Prop} {take : ι → Option α} {made : α → ω}
    (htakes : ∀ answer a, take answer = some a → takes answer) (hlogs : ∀ a, logs (made a)) :
    Confined takes logs (call take made : Await ι ω σ α) :=
  confined_bind (confined_await htakes) fun a =>
    confined_bind (confined_observe (hlogs a)) fun _ => confined_pure a

/-! ## Carrying out a coarser computation -/

/-- Where `x` returns, so does `y` on what the calls of `x` amount to. -/
def Simulates (erase : ω → Option ι') (rel : α → β → Prop) (x : Await ι ω σ α)
    (y : Await ι' ω' σ' β) : Prop :=
  ∀ s a t, x s = (some a, t) → ∀ rest log s', ∃ calls b t', t.log = s.log ++ calls ∧
    y ⟨calls.filterMap erase ++ rest, log, s'⟩ = (some b, t') ∧ t'.tape = rest ∧ rel a b

/-- Nothing that is logged is an answer to the coarser computation. -/
def Silent (erase : ω → Option ι') (x : Await ι ω σ α) : Prop :=
  Confined (fun _ => True) (fun o => erase o = none) x

/-- It returns without an answer. -/
def Idle (y : Await ι' ω' σ' β) : Prop := ∀ s, ∃ b t, y s = (some b, t) ∧ t.tape = s.tape

theorem idle_get : Idle (get : Await ι' ω' σ' σ') := fun s => ⟨s.state, s, rfl, rfl⟩

theorem idle_modify (f : σ' → σ') : Idle (modify f : Await ι' ω' σ' Unit) :=
  fun _ => ⟨(), _, rfl, rfl⟩

theorem idle_observe (o : ω') : Idle (observe o : Await ι' ω' σ' Unit) := fun _ => ⟨(), _, rfl, rfl⟩

section Rules

variable {erase : ω → Option ι'} {rel : α → β → Prop}

theorem simulates_pure {a : α} {b : β} (h : rel a b) :
    Simulates erase rel (pure a : Await ι ω σ α) (pure b : Await ι' ω' σ' β) := by
  intro s a' t heq rest log s'
  cases heq
  exact ⟨[], b, _, (List.append_nil _).symm, rfl, rfl, h⟩

theorem simulates_bind {rel' : γ → δ → Prop} {x : Await ι ω σ α} {y : Await ι' ω' σ' β}
    {f : α → Await ι ω σ γ} {g : β → Await ι' ω' σ' δ} (hxy : Simulates erase rel x y)
    (hfg : ∀ a b, rel a b → Simulates erase rel' (f a) (g b)) :
    Simulates erase rel' (x >>= f) (y >>= g) := by
  intro s c u heq rest log s'
  obtain ⟨a, t, hx, hf⟩ := bind_some heq
  -- what `f` logs is known before it is known what `y` returns in front of it
  obtain ⟨-, b₀, -, -, -, -, hrel₀⟩ := hxy s a t hx [] log s'
  obtain ⟨calls₂, -, -, hlog₂, -, -, -⟩ := hfg a b₀ hrel₀ t c u hf rest log s'
  obtain ⟨calls₁, b, t', hlog₁, hy, htape, hrel⟩ :=
    hxy s a t hx (calls₂.filterMap erase ++ rest) log s'
  obtain ⟨calls, d, u', hlog, hg, hrest, hrel'⟩ := hfg a b hrel t c u hf rest t'.log t'.state
  obtain rfl : calls = calls₂ := List.append_cancel_left (hlog.symm.trans hlog₂)
  have ht : t' = ⟨calls.filterMap erase ++ rest, t'.log, t'.state⟩ := by rw [← htape]
  refine ⟨calls₁ ++ calls, d, u', ?_, ?_, hrest, hrel'⟩
  · rw [hlog, hlog₁, List.append_assoc]
  · rw [List.filterMap_append, List.append_assoc, bind_eq_some hy, ht]
    exact hg

/-- A call that amounts to an answer, or to nothing yet, depending on what it was
answered. -/
theorem simulates_call {rel' : γ → δ → Prop} {take : ι → Option α} {made : α → ω}
    {take' : ι' → Option β} {f : α → Await ι ω σ γ} {g : β → Await ι' ω' σ' δ}
    (h : ∀ a, (erase (made a) = none ∧ Simulates erase rel' (f a) (await take' >>= g)) ∨
      ∃ answer b, erase (made a) = some answer ∧ take' answer = some b ∧
        Simulates erase rel' (f a) (g b)) :
    Simulates erase rel' (call take made >>= f) (await take' >>= g) := by
  intro s c u heq rest log s'
  obtain ⟨a, t, hcall, hf⟩ := bind_some heq
  obtain ⟨_, _, -, -, rfl⟩ := call_some hcall
  rcases h a with ⟨hnone, hsim⟩ | ⟨answer, b, hsome, htake, hsim⟩
  · obtain ⟨calls, d, u', hlog, hy, hrest, hrel⟩ := hsim _ c u hf rest log s'
    refine ⟨made a :: calls, d, u', by simpa using hlog, ?_, hrest, hrel⟩
    rw [List.filterMap_cons_none hnone]
    exact hy
  · obtain ⟨calls, d, u', hlog, hg, hrest, hrel⟩ := hsim _ c u hf rest log s'
    refine ⟨made a :: calls, d, u', by simpa using hlog, ?_, hrest, hrel⟩
    rw [List.filterMap_cons_some hsome]
    have hawait : await take' ⟨answer :: calls.filterMap erase ++ rest, log, s'⟩ =
        (some b, (⟨calls.filterMap erase ++ rest, log, s'⟩ : Stage ι' ω' σ')) := by
      simp [await, htake]
    rw [bind_eq_some hawait]
    exact hg

/-- A step of the finer computation that the coarser one does not see. -/
theorem simulates_silent {x : Await ι ω σ γ} {f : γ → Await ι ω σ α} {y : Await ι' ω' σ' β}
    (hx : Silent erase x) (hf : ∀ c, Simulates erase rel (f c) y) :
    Simulates erase rel (x >>= f) y := by
  intro s a u heq rest log s'
  obtain ⟨c, t, hc, hfc⟩ := bind_some heq
  obtain ⟨-, calls₁, -, hlog₁, -, hsilent⟩ := hx s
  rw [hc] at hlog₁
  obtain ⟨calls, b, u', hlog, hy, hrest, hrel⟩ := hf c t a u hfc rest log s'
  have hnone : calls₁.filterMap erase = [] := List.filterMap_eq_nil_iff.mpr hsilent
  refine ⟨calls₁ ++ calls, b, u', ?_, ?_, hrest, hrel⟩
  · rw [hlog, hlog₁, List.append_assoc]
  · rw [List.filterMap_append, hnone]
    exact hy

/-- A step of the coarser computation that the finer one does not make. -/
theorem simulates_idle {x : Await ι ω σ α} {y : Await ι' ω' σ' δ} {g : δ → Await ι' ω' σ' β}
    (hy : Idle y) (hg : ∀ d, Simulates erase rel x (g d)) : Simulates erase rel x (y >>= g) := by
  intro s a t heq rest log s'
  -- what `x` logs is known before it is known what `y` returns
  obtain ⟨d₀, -, -, -⟩ := hy ⟨rest, log, s'⟩
  obtain ⟨calls₀, -, -, hlog₀, -, -, -⟩ := hg d₀ s a t heq rest log s'
  obtain ⟨d, t', hd, htape⟩ := hy ⟨calls₀.filterMap erase ++ rest, log, s'⟩
  change t'.tape = calls₀.filterMap erase ++ rest at htape
  obtain ⟨calls, b, u', hlog, hb, hrest, hrel⟩ := hg d s a t heq rest t'.log t'.state
  obtain rfl : calls = calls₀ := List.append_cancel_left (hlog.symm.trans hlog₀)
  have ht : t' = ⟨calls.filterMap erase ++ rest, t'.log, t'.state⟩ := by rw [← htape]
  refine ⟨calls, b, u', hlog, ?_, hrest, hrel⟩
  rw [bind_eq_some hd, ht]
  exact hb

theorem Simulates.mono {rel' : α → β → Prop} {x : Await ι ω σ α} {y : Await ι' ω' σ' β}
    (h : Simulates erase rel x y) (hrel : ∀ a b, rel a b → rel' a b) :
    Simulates erase rel' x y := by
  intro s a t heq rest log s'
  obtain ⟨calls, b, t', hlog, hy, htape, hab⟩ := h s a t heq rest log s'
  exact ⟨calls, b, t', hlog, hy, htape, hrel a b hab⟩

end Rules

end Btwattch2.Lib.Await
