/-
Btwattch2.Lib.Tape — what a computation takes and logs, and what it has been told.

`Confined takes logs x` bounds the answers `x` takes off the tape and the
observations it logs. The answers on a tape are of several kinds. `Echoes kind note
owed x` says that `x` notes down, in order, what it is told of one of them, and
`wpTold kind x Q E told log s` is `wp` with the answers of one kind that were taken so
far, `told`. It has the same rules; where a computation takes none of the kind, a fact
of `wp` is one of `wpTold` (`wpTold_of_confined`).
-/
import Btwattch2.Lib.Await

namespace Btwattch2.Lib.Await

variable {ι ω σ τ α β γ : Type} {takes takes' : ι → Prop} {logs logs' : ω → Prop}
  {kind : ι → Option γ}

/-! ## What a computation takes and logs -/

/-- `x` takes only answers in `takes` and logs only observations in `logs`. -/
def Confined (takes : ι → Prop) (logs : ω → Prop) (x : Await ι ω σ α) : Prop :=
  ∀ s, ∃ used obs, s.tape = used ++ (x s).2.tape ∧ (x s).2.log = s.log ++ obs ∧
    (∀ a ∈ used, takes a) ∧ ∀ o ∈ obs, logs o

theorem confined_of_idle {x : Await ι ω σ α} (htape : ∀ s, (x s).2.tape = s.tape)
    (hlog : ∀ s, (x s).2.log = s.log) : Confined takes logs x :=
  fun s => ⟨[], [], (htape s).symm, by simp [hlog], by simp, by simp⟩

theorem confined_pure (a : α) : Confined takes logs (pure a : Await ι ω σ α) :=
  confined_of_idle (fun _ => rfl) fun _ => rfl

theorem confined_get : Confined takes logs (get : Await ι ω σ σ) :=
  confined_of_idle (fun _ => rfl) fun _ => rfl

theorem confined_modify (f : σ → σ) : Confined takes logs (modify f : Await ι ω σ Unit) :=
  confined_of_idle (fun _ => rfl) fun _ => rfl

theorem confined_observe {o : ω} (h : logs o) :
    Confined takes logs (observe o : Await ι ω σ Unit) :=
  fun s => ⟨[], [o], rfl, rfl, by simp, by simpa using h⟩

theorem confined_await {take : ι → Option α} (h : ∀ a x, take a = some x → takes a) :
    Confined takes logs (await take : Await ι ω σ α) := by
  intro s
  unfold await
  split
  case h_1 htape => exact ⟨[], [], rfl, by simp, by simp, by simp⟩
  case h_2 a rest htape =>
    split
    case h_1 x hx => exact ⟨[a], [], by simp [htape], by simp, by simpa using h a x hx, by simp⟩
    case h_2 => exact ⟨[], [], rfl, by simp, by simp, by simp⟩

theorem confined_bind {x : Await ι ω σ β} {f : β → Await ι ω σ α} (hx : Confined takes logs x)
    (hf : ∀ b, Confined takes logs (f b)) : Confined takes logs (x >>= f) := by
  intro s
  obtain ⟨used, obs, htape, hlog, hused, hobs⟩ := hx s
  simp only [bind]
  match h : x s with
  | (some b, t) =>
    obtain ⟨used', obs', htape', hlog', hused', hobs'⟩ := hf b t
    rw [h] at htape hlog
    refine ⟨used ++ used', obs ++ obs', ?_, ?_, ?_, ?_⟩
    · rw [htape, htape', List.append_assoc]
    · rw [hlog', hlog, List.append_assoc]
    · exact fun a ha => (List.mem_append.mp ha).elim (hused a) (hused' a)
    · exact fun o ho => (List.mem_append.mp ho).elim (hobs o) (hobs' o)
  | (none, t) =>
    rw [h] at htape hlog
    exact ⟨used, obs, htape, hlog, hused, hobs⟩

theorem confined_zoom {part : σ → τ} {put : τ → σ → σ} {x : Await ι ω τ α}
    (hx : Confined takes logs x) : Confined takes logs (zoom part put x) :=
  fun s => hx ⟨s.tape, s.log, part s.state⟩

theorem confined_loop {body : Await ι ω σ (Option α)} (hbody : Confined takes logs body) :
    Confined takes logs (loop body) := by
  have hfor : ∀ n, Confined takes logs (loopFor body n) := by
    intro n
    induction n with
    | zero => exact confined_of_idle (fun _ => rfl) fun _ => rfl
    | succ n ih =>
      refine confined_bind hbody fun r => ?_
      cases r with
      | none => exact ih
      | some a => exact confined_pure a
  exact fun s => hfor _ s

theorem Confined.mono {x : Await ι ω σ α} (h : Confined takes logs x)
    (htakes : ∀ a, takes a → takes' a) (hlogs : ∀ o, logs o → logs' o) :
    Confined takes' logs' x := by
  intro s
  obtain ⟨used, obs, htape, hlog, hused, hobs⟩ := h s
  exact ⟨used, obs, htape, hlog, fun a ha => htakes a (hused a ha), fun o ho => hlogs o (hobs o ho)⟩

/-- The log goes on with observations in `logs`. -/
theorem Confined.wp {x : Await ι ω σ α} (h : Confined takes logs x) {log : List ω} {s : σ} :
    wp x (fun _ log' _ => ∃ obs, log' = log ++ obs ∧ ∀ o ∈ obs, logs o)
      (fun log' _ => ∃ obs, log' = log ++ obs ∧ ∀ o ∈ obs, logs o) log s := by
  intro tape
  obtain ⟨-, obs, -, hlog, -, hobs⟩ := h ⟨tape, log, s⟩
  revert hlog
  match x ⟨tape, log, s⟩ with
  | (some a, t) => exact fun hlog => ⟨obs, hlog, hobs⟩
  | (none, t) => exact fun hlog => ⟨obs, hlog, hobs⟩

/-! ## What is noted down of what is told -/

section Echoes

variable {note : ω → Option γ} {owed : List γ}

/-- From here, the observations that `note` reads are what is `owed`, followed by the
answers of the kind that are taken. -/
def EchoesAt (kind : ι → Option γ) (note : ω → Option γ) (owed : List γ) (x : Await ι ω σ α)
    (s : Stage ι ω σ) : Prop :=
  ∃ used obs, s.tape = used ++ (x s).2.tape ∧ (x s).2.log = s.log ++ obs ∧
    obs.filterMap note = owed ++ used.filterMap kind

def Echoes (kind : ι → Option γ) (note : ω → Option γ) (owed : List γ) (x : Await ι ω σ α) : Prop :=
  ∀ s, EchoesAt kind note owed x s

theorem Confined.echoes {x : Await ι ω σ α}
    (h : Confined (fun a => kind a = none) (fun o => note o = none) x) : Echoes kind note [] x := by
  intro s
  obtain ⟨used, obs, htape, hlog, hused, hobs⟩ := h s
  refine ⟨used, obs, htape, hlog, ?_⟩
  rw [List.filterMap_eq_nil_iff.mpr hused, List.filterMap_eq_nil_iff.mpr hobs, List.append_nil]

theorem echoes_pure (a : α) : Echoes kind note [] (pure a : Await ι ω σ α) :=
  (confined_pure a).echoes

theorem echoes_observe (o : ω) :
    Echoes kind note (note o).toList (observe o : Await ι ω σ Unit) := by
  intro s
  refine ⟨[], [o], rfl, rfl, ?_⟩
  cases h : note o <;> simp [h]

theorem echoes_bind {x : Await ι ω σ β} {f : β → Await ι ω σ α} (hx : Echoes kind note owed x)
    (hf : ∀ b, Echoes kind note [] (f b)) : Echoes kind note owed (x >>= f) := by
  intro s
  obtain ⟨used, obs, htape, hlog, hobs⟩ := hx s
  unfold EchoesAt
  simp only [bind]
  match h : x s with
  | (some b, t) =>
    obtain ⟨used', obs', htape', hlog', hobs'⟩ := hf b t
    rw [h] at htape hlog
    refine ⟨used ++ used', obs ++ obs', ?_, ?_, ?_⟩
    · rw [htape, htape', List.append_assoc]
    · rw [hlog', hlog, List.append_assoc]
    · rw [List.filterMap_append, List.filterMap_append, hobs, hobs', List.nil_append,
        List.append_assoc]
  | (none, t) =>
    rw [h] at htape hlog
    exact ⟨used, obs, htape, hlog, hobs⟩

/-- What an await is told is noted down by what comes after it. -/
theorem echoes_awaitBind {take : ι → Option β} {f : β → Await ι ω σ α}
    (hf : ∀ a b, take a = some b → Echoes kind note (kind a).toList (f b)) :
    Echoes kind note [] (await take >>= f) := by
  rintro ⟨tape, log, state⟩
  cases tape with
  | nil => exact ⟨[], [], rfl, (List.append_nil _).symm, rfl⟩
  | cons a rest =>
    cases h : take a with
    | none =>
      have hstop : (await take >>= f) ⟨a :: rest, log, state⟩ = (none, ⟨a :: rest, log, state⟩) := by
        simp only [bind, await, h]
      unfold EchoesAt
      rw [hstop]
      exact ⟨[], [], rfl, (List.append_nil _).symm, rfl⟩
    | some b =>
      have hgo : (await take >>= f) ⟨a :: rest, log, state⟩ = f b ⟨rest, log, state⟩ := by
        simp only [bind, await, h]
      obtain ⟨used, obs, htape, hlog, hobs⟩ := hf a b h ⟨rest, log, state⟩
      unfold EchoesAt
      rw [hgo]
      refine ⟨a :: used, obs, congrArg (a :: ·) htape, hlog, ?_⟩
      rw [hobs, List.nil_append]
      cases hkind : kind a <;> simp [hkind]

/-- What is owed may be noted down later, as long as nothing is told before. -/
theorem Confined.defer {x : Await ι ω σ β} {f : β → Await ι ω σ α} {s t : Stage ι ω σ} {b : β}
    (hx : Confined (fun a => kind a = none) (fun o => note o = none) x) (hgo : x s = (some b, t))
    (hf : EchoesAt kind note owed (f b) t) : EchoesAt kind note owed (x >>= f) s := by
  obtain ⟨used, obs, htape, hlog, hused, hobs⟩ := hx s
  obtain ⟨used', obs', htape', hlog', hobs'⟩ := hf
  unfold EchoesAt
  simp only [bind, hgo]
  rw [hgo] at htape hlog
  refine ⟨used ++ used', obs ++ obs', ?_, ?_, ?_⟩
  · rw [htape, htape', List.append_assoc]
  · rw [hlog', hlog, List.append_assoc]
  · rw [List.filterMap_append, List.filterMap_append, List.filterMap_eq_nil_iff.mpr hused,
      List.filterMap_eq_nil_iff.mpr hobs, hobs', List.nil_append, List.nil_append]

theorem echoes_loop {body : Await ι ω σ (Option α)} (hbody : Echoes kind note [] body) :
    Echoes kind note [] (loop body) := by
  have hfor : ∀ n, Echoes kind note [] (loopFor body n) := by
    intro n
    induction n with
    | zero => exact fun s => ⟨[], [], rfl, (List.append_nil _).symm, rfl⟩
    | succ n ih =>
      refine echoes_bind hbody fun r => ?_
      cases r with
      | none => exact ih
      | some a => exact echoes_pure a
  exact fun s => hfor _ s

end Echoes

/-! ## What holds of the answers taken so far -/

/-- `x`, started where `told` has been taken of the kind, ends in `Q` or is
abandoned in `E`, whatever it is answered. -/
def wpTold (kind : ι → Option γ) (x : Await ι ω σ α) (Q : α → List γ → List ω → σ → Prop)
    (E : List γ → List ω → σ → Prop) (told : List γ) (log : List ω) (s : σ) : Prop :=
  ∀ tape, ∃ used, tape = used ++ (x ⟨tape, log, s⟩).2.tape ∧
    match x ⟨tape, log, s⟩ with
    | (some a, t) => Q a (told ++ used.filterMap kind) t.log t.state
    | (none, t) => E (told ++ used.filterMap kind) t.log t.state

variable {Q : α → List γ → List ω → σ → Prop} {E : List γ → List ω → σ → Prop} {told : List γ}
  {log : List ω} {s : σ}

theorem wpTold_of_confined {x : Await ι ω σ α} (hx : Confined (fun a => kind a = none) logs x)
    (h : wp x (fun a => Q a told) (E told) log s) : wpTold kind x Q E told log s := by
  intro tape
  obtain ⟨used, -, htape, -, hused, -⟩ := hx ⟨tape, log, s⟩
  refine ⟨used, htape, ?_⟩
  rw [List.filterMap_eq_nil_iff.mpr hused, List.append_nil]
  exact h tape

theorem wpTold_mono {Q' : α → List γ → List ω → σ → Prop} {E' : List γ → List ω → σ → Prop}
    {x : Await ι ω σ α} (h : wpTold kind x Q E told log s)
    (hQ : ∀ a told log s, Q a told log s → Q' a told log s)
    (hE : ∀ told log s, E told log s → E' told log s) : wpTold kind x Q' E' told log s := by
  intro tape
  obtain ⟨used, htape, hx⟩ := h tape
  refine ⟨used, htape, ?_⟩
  revert hx
  match x ⟨tape, log, s⟩ with
  | (some a, t) => exact hQ a _ _ _
  | (none, t) => exact hE _ _ _

/-- A step that awaits nothing is a fact of `wp`. -/
theorem wpTold_of_idle {x : Await ι ω σ α} (htape : ∀ s, (x s).2.tape = s.tape)
    (h : wp x (fun a => Q a told) (E told) log s) : wpTold kind x Q E told log s := by
  intro tape
  refine ⟨[], (htape ⟨tape, log, s⟩).symm, ?_⟩
  rw [List.filterMap_nil, List.append_nil]
  exact h tape

theorem wpTold_pure {a : α} (h : Q a told log s) :
    wpTold kind (pure a : Await ι ω σ α) Q E told log s :=
  wpTold_of_idle (fun _ => rfl) (wp_pure.mpr h)

theorem wpTold_get {Q : σ → List γ → List ω → σ → Prop} (h : Q s told log s) :
    wpTold kind (get : Await ι ω σ σ) Q E told log s :=
  wpTold_of_idle (fun _ => rfl) (wp_get.mpr h)

theorem wpTold_observe {o : ω} {Q : Unit → List γ → List ω → σ → Prop}
    (h : Q () told (log ++ [o]) s) : wpTold kind (observe o : Await ι ω σ Unit) Q E told log s :=
  wpTold_of_idle (fun _ => rfl) (wp_observe.mpr h)

theorem wpTold_bind {x : Await ι ω σ β} {f : β → Await ι ω σ α}
    (h : wpTold kind x (fun b told log s => wpTold kind (f b) Q E told log s) E told log s) :
    wpTold kind (x >>= f) Q E told log s := by
  intro tape
  obtain ⟨used, htape, hx⟩ := h tape
  revert hx htape
  simp only [bind]
  obtain ⟨r, t⟩ := x ⟨tape, log, s⟩
  cases r with
  | none => exact fun htape hx => ⟨used, htape, hx⟩
  | some b =>
    intro htape hb
    obtain ⟨used', htape', hf⟩ := hb t.tape
    refine ⟨used ++ used', ?_, ?_⟩
    · rw [List.append_assoc, ← htape']
      exact htape
    · simpa only [List.filterMap_append, List.append_assoc] using hf

theorem wpTold_await {take : ι → Option α} (hE : E told log s)
    (hQ : ∀ a x, take a = some x → Q x (told ++ (kind a).toList) log s) :
    wpTold kind (await take : Await ι ω σ α) Q E told log s := by
  intro tape
  match tape with
  | [] => exact ⟨[], rfl, by simpa [await] using hE⟩
  | a :: rest =>
    simp only [await]
    cases h : take a with
    | none => exact ⟨[], rfl, by simpa using hE⟩
    | some x =>
      refine ⟨[a], rfl, ?_⟩
      cases hkind : kind a <;> simpa [hkind] using hQ a x h

/-- An await of answers of another kind. -/
theorem wpTold_awaitOther {take : ι → Option α} (hother : ∀ a x, take a = some x → kind a = none)
    (hE : E told log s) (hQ : ∀ x, Q x told log s) :
    wpTold kind (await take : Await ι ω σ α) Q E told log s := by
  refine wpTold_await hE fun a x hx => ?_
  rw [hother a x hx, Option.toList_none, List.append_nil]
  exact hQ x

/-- The invariant rule of `loop`. -/
theorem wpTold_loop {body : Await ι ω σ (Option α)} {I : List γ → List ω → σ → Prop}
    (hI : I told log s) (hE : ∀ told log s, I told log s → E told log s)
    (hbody : ∀ told log s, I told log s → wpTold kind body
      (fun r told log s => match r with
        | some a => Q a told log s
        | none => I told log s) E told log s) :
    wpTold kind (loop body) Q E told log s := by
  have hfor : ∀ n told log s, I told log s → wpTold kind (loopFor body n) Q E told log s := by
    intro n
    induction n with
    | zero =>
      intro told log s h tape
      exact ⟨[], rfl, by simpa [loopFor] using hE told log s h⟩
    | succ n ih =>
      intro told log s h
      refine wpTold_bind (wpTold_mono (hbody told log s h) ?_ fun _ _ _ h => h)
      intro r told log s hr
      cases r with
      | none => exact ih told log s hr
      | some a => exact wpTold_pure hr
  exact fun tape => hfor _ told log s hI tape

end Btwattch2.Lib.Await
