import Clash.Lib.CProg

/-!
# Conditions on programs

Rules for what holds behind a program, whether it returns or stops, and for programs that do the
same as another one on a part of their state.

## Main definitions

* `Triple P p Q E`: from a state in `P`, `p` returns in `Q` or stops in `E`.
* `Keeps P E p`: `p` keeps `P`, and stops in `E`.
* `Projects get p q`: where `p` returns, `q` returns the same on the part `get` of the state.
* `Inert p`: `p` leaves the state as it is.
* `Spares get p`: `p` leaves the part `get` of the state as it is, whether it returns or stops.
* `Simulates P get p q`: from a state in `P`, `p` returns or stops just as `q` does on the part
  `get`, and where it returns it keeps `P`.

## Main results

* `Triple.bind`, `Keeps.bind`, `Keeps.loop`, `Keeps.forM`: the rules for sequences and loops.
* `Triple.frame`: a part of the state that is left alone.
* `Projects.bind`, `Projects.loop`, `Simulates.bind`: a program may be compared with another one
  part by part.
-/

namespace CProg

variable {σ τ α β : Type}

/-! ## Pre- and postconditions -/

/-- From a state in `P`, a run that returns ends in `Q`, and a run that stops in `E`. -/
def Triple (P : σ → Prop) (p : Prog σ α) (Q : α → σ → Prop) (E : σ → Prop) : Prop :=
  ∀ s, P s → match p.run s with
    | .ok a s' => Q a s'
    | .error _ s' => E s'

/-- The program keeps `P`. -/
def Keeps (P E : σ → Prop) (p : Prog σ α) : Prop := Triple P p (fun _ => P) E

section Triple

variable {P E : σ → Prop} {Q : α → σ → Prop} {R : β → σ → Prop} {p : Prog σ α}
  {f : α → Prog σ β}

/-- The rule of composition: what holds behind the first half holds in front of the second. -/
theorem Triple.bind (hp : Triple P p Q E) (hf : ∀ a, Triple (Q a) (f a) R E) :
    Triple P (p >>= f) R E := by
  intro s hs
  have h := hp s hs
  rw [EStateM.run_bind]
  cases hrun : p.run s with
  | ok a s' =>
    rw [hrun] at h
    exact hf a s' h
  | error e s' =>
    rw [hrun] at h
    exact h

/-- What a triple says about a run that returns. -/
theorem Triple.of_ok {s s' : σ} {a : α} (h : Triple P p Q E) (hs : P s)
    (hrun : p.run s = .ok a s') : Q a s' := by
  have hpost := h s hs
  rwa [hrun] at hpost

/-- What it says about a run that stops. -/
theorem Triple.of_error {s s' : σ} {e : Stop} (h : Triple P p Q E) (hs : P s)
    (hrun : p.run s = .error e s') : E s' := by
  have hpost := h s hs
  rwa [hrun] at hpost

/-- A check that fails stops in the state that it is made in. -/
theorem Triple.assert_bind {c : Prop} [Decidable c] {f : Unit → Prog σ β} (hE : ∀ s, P s → E s)
    (h : c → Triple P (f ()) R E) : Triple P (assert c >>= f) R E := by
  intro s hs
  rw [run_assert_bind]
  by_cases hc : c
  · rw [if_pos hc]
    exact h hc s hs
  · rw [if_neg hc]
    exact hE s hs

/-- What is read is a state as it was required. -/
theorem Triple.get_bind {f : σ → Prog σ β} (h : ∀ s, P s → Triple P (f s) R E) :
    Triple P (MonadState.get >>= f) R E := fun s hs => h s hs s hs

/-- The rule of consequence. -/
theorem Triple.imp {P' E' : σ → Prop} {Q' : α → σ → Prop} (h : Triple P p Q E)
    (hP : ∀ s, P' s → P s) (hQ : ∀ a s, Q a s → Q' a s) (hE : ∀ s, E s → E' s) :
    Triple P' p Q' E' := by
  intro s hs
  have hpost := h s (hP s hs)
  cases hrun : p.run s with
  | ok a s' =>
    rw [hrun] at hpost
    exact hQ a s' hpost
  | error e s' =>
    rw [hrun] at hpost
    exact hE s' hpost

/-- A loop over a list, with what holds behind each part of it. -/
theorem Triple.forM {I : List α → σ → Prop} {body : α → Prog σ PUnit} {l : List α}
    (h : ∀ before a after, l = before ++ a :: after →
      Triple (I before) (body a) (fun _ => I (before ++ [a])) E) :
    Triple (I []) (l.forM body) (fun _ => I l) E := by
  have hrest (rest : List α) : ∀ before, l = before ++ rest →
      Triple (I before) (rest.forM body) (fun _ => I l) E := by
    induction rest with
    | nil =>
      intro before hl
      rw [hl, List.append_nil]
      exact fun s hs => hs
    | cons a rest ih =>
      intro before hl
      refine (h before a rest hl).bind fun _ => ih (before ++ [a]) ?_
      rw [hl, List.append_assoc, List.singleton_append]
  exact hrest l [] rfl

/-- A program on a part of the state. -/
theorem Triple.zoom (get : τ → σ) (set : σ → τ → τ) (h : Triple P p Q E)
    (hget : ∀ s t, get (set s t) = s) :
    Triple (fun t => P (get t)) (zoom get set p) (fun a t => Q a (get t))
      fun t => E (get t) := by
  intro t ht
  have hpost := h (get t) ht
  cases hrun : p.run (get t) with
  | ok a s =>
    rw [hrun] at hpost
    rw [run_zoom_of_ok hrun]
    change Q a (get (set s t))
    rwa [hget]
  | error e s =>
    rw [hrun] at hpost
    rw [run_zoom_of_error hrun]
    change E (get (set s t))
    rwa [hget]

end Triple

section Keeps

variable {P E : σ → Prop} {p : Prog σ α} {f : α → Prog σ β}

theorem keeps_pure (a : α) : Keeps P E (pure a : Prog σ α) := fun _ hs => hs

/-- Every program keeps what always holds. -/
theorem keeps_true (p : Prog σ α) : Keeps (fun _ => True) (fun _ => True) p := by
  intro s _
  cases p.run s <;> exact trivial

/-- A first part of which nothing is known. -/
theorem Triple.skip {Q : β → σ → Prop}
    (hf : ∀ a, Triple (fun _ => True) (f a) Q fun _ => True) :
    Triple (fun _ => True) (p >>= f) Q fun _ => True := Triple.bind (keeps_true p) hf

theorem keeps_get : Keeps P E (get : Prog σ σ) := fun _ hs => hs

/-- A change of the state keeps what the function on states keeps. -/
theorem keeps_modify {f : σ → σ} (h : ∀ s, P s → P (f s)) : Keeps P E (modify f : Prog σ PUnit) :=
  fun s hs => h s hs

/-- A sequence keeps what both halves keep. -/
theorem Keeps.bind (hp : Keeps P E p) (hf : ∀ a, Keeps P E (f a)) : Keeps P E (p >>= f) :=
  Triple.bind hp hf

/-- A case distinction keeps what both branches keep. -/
theorem Keeps.ite {c : Prop} [Decidable c] {p q : Prog σ α} (hp : Keeps P E p)
    (hq : Keeps P E q) : Keeps P E (if c then p else q) := by
  by_cases hc : c
  · rwa [if_pos hc]
  · rwa [if_neg hc]

/-- A row of programs keeps what each of them keeps. -/
theorem Keeps.forM {l : List α} {body : α → Prog σ PUnit} (h : ∀ a, Keeps P E (body a)) :
    Keeps P E (l.forM body) := by
  induction l with
  | nil => exact keeps_pure _
  | cons a l ih => exact (h a).bind fun _ => ih

variable (hE : ∀ s, P s → E s)

include hE

/-- A program that stops keeps what also holds of the state that it stops in. -/
theorem keeps_throw (e : Stop) : Keeps P E (throw e : Prog σ α) := hE

/-- An `assert` changes nothing, whether it fails or not. -/
theorem keeps_assert (c : Prop) [Decidable c] : Keeps P E (assert c : Prog σ Unit) := by
  by_cases hc : c
  · intro s hs
    rw [run_assert_of_true hc]
    exact hs
  · intro s hs
    rw [run_assert_of_false hc]
    exact hE s hs

/-- A loop keeps what each of its rounds keeps. -/
theorem Keeps.loop {body : α → Prog σ (α ⊕ β)} (h : ∀ a, Keeps P E (body a)) (n : ℕ) (a : α) :
    Keeps P E (loop body n a) := by
  induction n generalizing a with
  | zero => exact keeps_throw hE _
  | succ n ih =>
    refine (h a).bind fun r => ?_
    rcases r with a' | b
    · exact ih a'
    · exact keeps_pure b

/-- A program on a part of the state keeps what no change of the part affects. -/
theorem keeps_zoom {get : σ → τ} {set : τ → σ → σ} (h : ∀ t s, P s → P (set t s))
    (p : Prog τ α) : Keeps P E (zoom get set p) := by
  intro s hs
  cases hp : p.run (get s) with
  | ok a t =>
    rw [run_zoom_of_ok hp]
    exact h t s hs
  | error e t =>
    rw [run_zoom_of_error hp]
    exact hE _ (h t s hs)

end Keeps

/-! ## Programs on a part of the state -/

/-- Where `p` returns, `q` returns the same on the part `get` of the state. -/
def Projects (get : σ → τ) (p : Prog σ α) (q : Prog τ α) : Prop :=
  ∀ s a s', p.run s = .ok a s' → q.run (get s) = .ok a (get s')

section Projects

variable {get : σ → τ} {p : Prog σ α} {q : Prog τ α} {f : α → Prog σ β} {g : α → Prog τ β}

theorem projects_pure (a : α) : Projects get (pure a : Prog σ α) (pure a) := by
  intro s a' s' h
  cases h
  rfl

/-- Sequences are followed half by half. -/
theorem Projects.bind (hp : Projects get p q) (hf : ∀ a, Projects get (f a) (g a)) :
    Projects get (p >>= f) (q >>= g) := by
  intro s b s'' h
  obtain ⟨a, s', hfirst, hrest⟩ := run_bind_eq_ok.mp h
  exact run_bind_eq_ok.mpr ⟨a, get s', hp s a s' hfirst, hf a s' b s'' hrest⟩

/-- A first part that does not touch the part of the state is left out. -/
theorem Projects.skip {q : Prog τ β} (hp : ∀ s a s', p.run s = .ok a s' → get s' = get s)
    (hf : ∀ a, Projects get (f a) q) : Projects get (p >>= f) q := by
  intro s b s'' h
  obtain ⟨a, s', hfirst, hrest⟩ := run_bind_eq_ok.mp h
  have hq := hf a s' b s'' hrest
  rwa [hp s a s' hfirst] at hq

/-- So is a last part. -/
theorem Projects.skip_last {p : Prog σ Unit} {q : Prog τ Unit} {r : Prog σ Unit}
    (hp : Projects get p q) (hr : ∀ s a s', r.run s = .ok a s' → get s' = get s) :
    Projects get (p >>= fun _ => r) q := by
  intro s b s'' h
  obtain ⟨a, s', hfirst, hrest⟩ := run_bind_eq_ok.mp h
  have hq := hp s a s' hfirst
  rwa [← hr s' b s'' hrest] at hq

/-- Both programs may read the state. -/
theorem projects_get_bind {f : σ → Prog σ α} {g : τ → Prog τ α}
    (h : ∀ s, Projects get (f s) (g (get s))) :
    Projects get (MonadState.get >>= f) (MonadState.get >>= g) :=
  fun s a s' hrun => h s s a s' hrun

/-- An `assert` that does not look at the state is followed by itself. -/
theorem projects_assert (c : Prop) [Decidable c] :
    Projects get (assert c : Prog σ Unit) (assert c) := by
  intro s a s' h
  obtain ⟨hc, rfl⟩ := run_assert_eq_ok.mp h
  exact run_assert_of_true hc (get s)

/-- Loops are followed round by round. -/
theorem Projects.loop {body : α → Prog σ (α ⊕ β)} {body' : α → Prog τ (α ⊕ β)}
    (h : ∀ a, Projects get (body a) (body' a)) (n : ℕ) (a : α) :
    Projects get (CProg.loop body n a) (CProg.loop body' n a) := by
  induction n generalizing a with
  | zero =>
    intro s b s' hrun
    cases hrun
  | succ n ih =>
    refine (h a).bind fun r => ?_
    rcases r with a' | b
    · exact ih a'
    · exact projects_pure b

end Projects

/-! ## Programs that only read -/

/-- The program leaves the state as it is, whether it returns or stops. -/
def Inert (p : Prog σ α) : Prop := ∀ s, final (p.run s) = s

section Inert

variable {p : Prog σ α} {f : α → Prog σ β}

theorem inert_pure (a : α) : Inert (pure a : Prog σ α) := fun _ => rfl

theorem inert_throw (e : Stop) : Inert (throw e : Prog σ α) := fun _ => rfl

theorem inert_get : Inert (get : Prog σ σ) := fun _ => rfl

/-- An `assert` changes nothing. -/
theorem inert_assert (c : Prop) [Decidable c] : Inert (assert c : Prog σ Unit) := by
  intro s
  rw [run_assert]
  split <;> rfl

theorem inert_defined (c : Prop) [Decidable c] : Inert (defined c : Prog σ Unit) := by
  intro s
  rw [defined]
  split <;> rfl

/-- A sequence of two programs that change nothing changes nothing. -/
theorem Inert.bind (hp : Inert p) (hf : ∀ a, Inert (f a)) : Inert (p >>= f) := by
  intro s
  have h := hp s
  rw [EStateM.run_bind]
  cases hrun : p.run s with
  | ok a s' =>
    rw [hrun] at h
    obtain rfl : s' = s := h
    exact hf a s'
  | error e s' =>
    rw [hrun] at h
    exact h

/-- Nor does a case distinction between two of them. -/
theorem Inert.ite {c : Prop} [Decidable c] {q : Prog σ α} (hp : Inert p) (hq : Inert q) :
    Inert (if c then p else q) := by
  by_cases hc : c
  · rwa [if_pos hc]
  · rwa [if_neg hc]

/-- A program that only reads keeps what is required. -/
theorem Inert.triple {P E : σ → Prop} {Q : α → Prop} (hp : Inert p) (hQ : Returns p Q)
    (hE : ∀ s, P s → E s) : Triple P p (fun a s => Q a ∧ P s) E := by
  intro s hs
  have h := hp s
  cases hrun : p.run s with
  | ok a s' =>
    rw [hrun] at h
    obtain rfl : s' = s := h
    exact ⟨hQ s' a s' hrun, hs⟩
  | error e s' =>
    rw [hrun] at h
    obtain rfl : s' = s := h
    exact hE s' hs

end Inert

/-! ## Parts of the state that are left alone -/

/-- The program leaves the part `get` of the state as it is, whether it returns or stops. -/
def Spares (get : σ → τ) (p : Prog σ α) : Prop := ∀ s, get (final (p.run s)) = get s

section Spares

variable {get : σ → τ} {p : Prog σ α} {f : α → Prog σ β}

/-- A program that changes nothing spares every part of the state. -/
theorem Inert.spares (hp : Inert p) : Spares get p := fun s => congrArg get (hp s)

theorem spares_pure (a : α) : Spares get (pure a : Prog σ α) := (inert_pure a).spares

theorem spares_get : Spares get (MonadState.get : Prog σ σ) := inert_get.spares

theorem spares_throw (e : Stop) : Spares get (throw e : Prog σ α) := (inert_throw e).spares

theorem spares_assert (c : Prop) [Decidable c] : Spares get (assert c : Prog σ Unit) :=
  (inert_assert c).spares

theorem spares_defined (c : Prop) [Decidable c] : Spares get (defined c : Prog σ Unit) :=
  (inert_defined c).spares

/-- A change of the state spares the parts that the function on states leaves alone. -/
theorem spares_modify {h : σ → σ} (hget : ∀ s, get (h s) = get s) :
    Spares get (modify h : Prog σ PUnit) := hget

/-- A sequence spares what both halves spare. -/
theorem Spares.bind (hp : Spares get p) (hf : ∀ a, Spares get (f a)) : Spares get (p >>= f) := by
  intro s
  have h := hp s
  rw [EStateM.run_bind]
  cases hrun : p.run s with
  | ok a s' =>
    rw [hrun] at h
    exact (hf a s').trans h
  | error e s' =>
    rw [hrun] at h
    exact h

/-- A case distinction spares what both branches spare. -/
theorem Spares.ite {c : Prop} [Decidable c] {q : Prog σ α} (hp : Spares get p)
    (hq : Spares get q) : Spares get (if c then p else q) := by
  by_cases hc : c
  · rwa [if_pos hc]
  · rwa [if_neg hc]

/-- A loop spares what each of its rounds spares. -/
theorem Spares.loop {body : α → Prog σ (α ⊕ β)} (h : ∀ a, Spares get (body a)) (n : ℕ) (a : α) :
    Spares get (CProg.loop body n a) := by
  induction n generalizing a with
  | zero => exact spares_throw _
  | succ n ih =>
    refine (h a).bind fun r => ?_
    rcases r with a' | b
    · exact ih a'
    · exact spares_pure b

/-- A row of programs spares what each of them spares. -/
theorem Spares.forM {l : List α} {body : α → Prog σ PUnit} (h : ∀ a, Spares get (body a)) :
    Spares get (l.forM body) := by
  induction l with
  | nil => exact spares_pure _
  | cons a l ih => exact (h a).bind fun _ => ih

/-- A program on another part of the state, or on a part that it spares. -/
theorem Spares.zoom {ρ : Type} {part : σ → ρ} {set : ρ → σ → σ} {get' : ρ → τ} {p : Prog ρ α}
    (hp : Spares get' p) (hpart : ∀ s, get' (part s) = get s)
    (hset : ∀ t s, get (set t s) = get' t) : Spares get (zoom part set p) := by
  intro s
  have h := hp (part s)
  cases hrun : p.run (part s) with
  | ok a t =>
    rw [hrun] at h
    rw [run_zoom_of_ok hrun]
    exact (hset t s).trans (h.trans (hpart s))
  | error e t =>
    rw [hrun] at h
    rw [run_zoom_of_error hrun]
    exact (hset t s).trans (h.trans (hpart s))

/-- A program on one part of the state spares the parts that no change of this one affects. -/
theorem spares_zoom {ρ : Type} {part : σ → ρ} {set : ρ → σ → σ} (h : ∀ t s, get (set t s) = get s)
    (p : Prog ρ α) : Spares get (zoom part set p) := by
  intro s
  cases hrun : p.run (part s) with
  | ok a t =>
    rw [run_zoom_of_ok hrun]
    exact h t s
  | error e t =>
    rw [run_zoom_of_error hrun]
    exact h t s

/-- A run that returns has left the part alone. -/
theorem Spares.of_ok (hp : Spares get p) (s : σ) (a : α) (s' : σ) (hrun : p.run s = .ok a s') :
    get s' = get s := by
  have h := hp s
  rwa [hrun] at h

/-- Two parts that are spared are spared as one. -/
theorem Spares.prod {ρ : Type} {get' : σ → ρ} (hp : Spares get p) (hp' : Spares get' p) :
    Spares (fun s => (get s, get' s)) p := fun s => Prod.ext (hp s) (hp' s)

/-- What holds of a part that is spared is kept. -/
theorem Spares.keeps (hp : Spares get p) (R : τ → Prop) {E : σ → Prop}
    (hE : ∀ s, R (get s) → E s) : Keeps (fun s => R (get s)) E p := by
  intro s hs
  have h := hp s
  cases hrun : p.run s with
  | ok a s' =>
    rw [hrun] at h
    exact (congrArg R h).mpr hs
  | error e s' =>
    rw [hrun] at h
    exact hE s' ((congrArg R h).mpr hs)

/-- The frame rule: what is known of a part that is spared is known behind the program. -/
theorem Triple.frame {P E : σ → Prop} {Q : α → σ → Prop} (h : Triple P p Q E)
    (hp : Spares get p) (R : τ → Prop) :
    Triple (fun s => P s ∧ R (get s)) p (fun a s => Q a s ∧ R (get s))
      fun s => E s ∧ R (get s) := by
  rintro s ⟨hs, hR⟩
  have hpost := h s hs
  have hget := hp s
  cases hrun : p.run s with
  | ok a s' =>
    rw [hrun] at hpost hget
    exact ⟨hpost, (congrArg R hget).mpr hR⟩
  | error e s' =>
    rw [hrun] at hpost hget
    exact ⟨hpost, (congrArg R hget).mpr hR⟩

end Spares

/-! ## Simulations -/

/-- From a state in `P`, `p` returns or stops just as `q` does on the part `get` of the state, and
where it returns it keeps `P`. -/
def Simulates (P : σ → Prop) (get : σ → τ) (p : Prog σ α) (q : Prog τ α) : Prop :=
  ∀ s, P s → match p.run s with
    | .ok a s' => q.run (get s) = .ok a (get s') ∧ P s'
    | .error e s' => q.run (get s) = .error e (get s')

section Simulates

variable {P : σ → Prop} {get : σ → τ} {p : Prog σ α} {q : Prog τ α} {f : α → Prog σ β}
  {g : α → Prog τ β}

theorem simulates_pure (a : α) : Simulates P get (pure a) (pure a) := fun _ hs => ⟨rfl, hs⟩

theorem simulates_throw (e : Stop) :
    Simulates P get (throw e : Prog σ α) (throw e) := fun _ _ => rfl

/-- An `assert` that does not look at the state is simulated by itself. -/
theorem simulates_assert (c : Prop) [Decidable c] :
    Simulates P get (assert c : Prog σ Unit) (assert c) := by
  by_cases hc : c
  · intro s hs
    rw [run_assert_of_true hc, run_assert_of_true hc]
    exact ⟨rfl, hs⟩
  · intro s hs
    rw [run_assert_of_false hc, run_assert_of_false hc]

/-- Sequences are simulated half by half. -/
theorem Simulates.bind (hp : Simulates P get p q) (hf : ∀ a, Simulates P get (f a) (g a)) :
    Simulates P get (p >>= f) (q >>= g) := by
  intro s hs
  have h := hp s hs
  rw [EStateM.run_bind, EStateM.run_bind]
  cases hrun : p.run s with
  | ok a s' =>
    rw [hrun] at h
    rw [h.1]
    exact hf a s' h.2
  | error e s' =>
    rw [hrun] at h
    rw [h]

/-- Case distinctions are simulated branch by branch. -/
theorem Simulates.ite {c : Prop} [Decidable c] {p' : Prog σ α} {q' : Prog τ α}
    (hp : Simulates P get p q) (hq : Simulates P get p' q') :
    Simulates P get (if c then p else p') (if c then q else q') := by
  by_cases hc : c
  · rwa [if_pos hc, if_pos hc]
  · rwa [if_neg hc, if_neg hc]

/-- Rows are simulated program by program. -/
theorem Simulates.forM {l : List β} {f : β → Prog σ PUnit} {g : β → Prog τ PUnit}
    (h : ∀ b, Simulates P get (f b) (g b)) : Simulates P get (l.forM f) (l.forM g) := by
  induction l with
  | nil => exact simulates_pure _
  | cons b l ih => exact (h b).bind fun _ => ih

/-- What a run comes to, and what it leaves in the part `get` of the state. -/
def outcome (get : σ → τ) : EStateM.Result Stop σ α → Except Stop α × τ
  | .ok a s => (.ok a, get s)
  | .error e s => (.error e, get s)

/-- A program and the one that simulates it come to the same outcome. -/
theorem Simulates.outcome_eq {s : σ} (h : Simulates P get p q) (hs : P s) :
    outcome get (p.run s) = outcome id (q.run (get s)) := by
  have hq := h s hs
  cases hrun : p.run s with
  | ok a s' =>
    rw [hrun] at hq
    rw [hq.1]
    rfl
  | error e s' =>
    rw [hrun] at hq
    rw [hq]
    rfl

/-- If the program returns, so does the one that simulates it, in the state behind. -/
theorem Simulates.of_ok {s s' : σ} {a : α} (h : Simulates P get p q) (hs : P s)
    (hrun : p.run s = .ok a s') : q.run (get s) = .ok a (get s') ∧ P s' := by
  have hq := h s hs
  rwa [hrun] at hq

/-- Where the other program returns, this one does. -/
theorem Simulates.exists_of_ok {s : σ} {t : τ} {a : α} (h : Simulates P get p q) (hs : P s)
    (hrun : q.run (get s) = .ok a t) : ∃ s', p.run s = .ok a s' ∧ get s' = t ∧ P s' := by
  have hq := h s hs
  cases hp : p.run s with
  | ok a' s' =>
    rw [hp, hrun] at hq
    obtain ⟨heq, hs'⟩ := hq
    cases heq
    exact ⟨s', rfl, rfl, hs'⟩
  | error e s' =>
    rw [hp, hrun] at hq
    cases hq

/-- The states that the simulation is about are kept. -/
theorem Simulates.keeps (h : Simulates P get p q) : Keeps P (fun _ => True) p := by
  intro s hs
  have hq := h s hs
  cases hrun : p.run s with
  | ok a s' =>
    rw [hrun] at hq
    exact hq.2
  | error e s' => exact trivial

end Simulates

end CProg
