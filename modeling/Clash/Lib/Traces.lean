import Clash.Lib.ProgramLogic

/-!
# Programs that leave a trace

A program over a state that keeps a list of events. What counts is picked from the events by a
function that sees each of them with all that came before it.

## Main definitions

* `select f past es`: what `f` picks from the events `es` behind `past`.
* `Performs trace f l p`: where `p` returns, `f` picks `l` from the events that it adds, and where
  it stops a prefix of `l`.
* `Tracks trace f P l p Q`: the same from a state in `P`, and `Q` holds of what is returned.

## Main results

* `exists_of_select`: where in the trace a picked event is.
* `Performs.bind`, `Performs.forM`, `Performs.zoom`: what a program performs, part by part.
* `Performs.prefix_of_run`: at any moment of a run a prefix of the list has been performed.
-/

open CProg

namespace Traces

variable {ε β σ τ α α' : Type}

/-! ## Picking from a trace -/

/-- What `f` picks from the events behind `past`. -/
def select (f : List ε → ε → Option β) (past : List ε) : List ε → List β
  | [] => []
  | e :: es => (f past e).toList ++ select f (past ++ [e]) es

section Select

variable {f : List ε → ε → Option β} {past es es' : List ε} {e : ε}

@[simp] theorem select_nil : select f past [] = [] := rfl

/-- What is selected from a trace in two parts. -/
theorem select_append :
    select f past (es ++ es') = select f past es ++ select f (past ++ es) es' := by
  induction es generalizing past with
  | nil => rw [List.nil_append, List.append_nil, select_nil, List.nil_append]
  | cons e es ih =>
    rw [List.cons_append, select, select, ih, List.append_assoc, List.append_assoc]
    rfl

/-- What is selected from one event. -/
theorem select_singleton : select f past [e] = (f past e).toList := by
  rw [select, select_nil, List.append_nil]

/-- A longer trace selects at least as much. -/
theorem select_mono (h : es <+: es') : select f past es <+: select f past es' := by
  obtain ⟨rest, rfl⟩ := h
  rw [select_append]
  exact List.prefix_append _ _

/-- Events that are all passed over select nothing. -/
theorem select_eq_nil (h : ∀ past, ∀ e ∈ es, f past e = none) : select f past es = [] := by
  induction es generalizing past with
  | nil => rfl
  | cons e es ih =>
    rw [select, h past e List.mem_cons_self]
    exact ih fun past' e' he' => h past' e' (List.mem_cons_of_mem e he')

/-- Where `f` picks nothing, neither does a function that picks less. -/
theorem select_eq_nil_of {γ : Type} {g : List ε → ε → Option γ}
    (hg : ∀ past e, f past e = none → g past e = none) (h : select f past es = []) :
    select g past es = [] := by
  induction es generalizing past with
  | nil => rfl
  | cons e es ih =>
    obtain ⟨hfirst, hrest⟩ := List.append_eq_nil_iff.mp h
    rw [select, hg past e (Option.toList_eq_nil_iff.mp hfirst), ih hrest]
    rfl

/-- What `g` picks from what `f` picks. -/
theorem filterMap_select {γ : Type} (g : β → Option γ) :
    (select f past es).filterMap g = select (fun past e => (f past e).bind g) past es := by
  induction es generalizing past with
  | nil => rfl
  | cons e es ih =>
    rw [select, select, List.filterMap_append, ih]
    rcases f past e with _ | b
    · rfl
    · rw [Option.toList_some, List.filterMap_cons, List.filterMap_nil, Option.bind_some]
      cases g b <;> rfl

/-- The event that a picked one comes from, behind all that was picked before it. -/
theorem exists_of_select {l : List β} {b : β} (h : l ++ [b] <+: select f past es) :
    ∃ pre e post, es = pre ++ e :: post ∧ select f past pre = l ∧ f (past ++ pre) e = some b := by
  induction es generalizing past l with
  | nil => exact absurd (List.prefix_nil.mp h) (by simp)
  | cons e es ih =>
    rw [select] at h
    rcases he : f past e with _ | b'
    · -- nothing is picked from the first event
      rw [he, Option.toList_none, List.nil_append] at h
      obtain ⟨pre, e', post, rfl, hpre, hpick⟩ := ih h
      refine ⟨e :: pre, e', post, rfl, ?_, ?_⟩
      · rw [select, he, hpre]
        rfl
      · rw [List.append_cons]
        exact hpick
    · rw [he, Option.toList_some, List.singleton_append] at h
      cases l with
      | nil =>
        obtain ⟨rfl, -⟩ := List.cons_prefix_cons.mp h
        refine ⟨[], e, es, rfl, rfl, ?_⟩
        rw [List.append_nil]
        exact he
      | cons b₀ l =>
        obtain ⟨rfl, hrest⟩ := List.cons_prefix_cons.mp h
        obtain ⟨pre, e', post, rfl, hpre, hpick⟩ := ih hrest
        refine ⟨e :: pre, e', post, rfl, ?_, ?_⟩
        · rw [select, he, hpre]
          rfl
        · rw [List.append_cons]
          exact hpick

/-- Behind a first part without `b`, the rest is searched. -/
theorem append_of_part {k l rest : List β} {b : β} (h : l ++ [b] <+: k ++ rest) (hb : b ∉ k) :
    ∃ l', l = k ++ l' ∧ l' ++ [b] <+: rest := by
  induction k generalizing l with
  | nil => exact ⟨l, rfl, h⟩
  | cons a k ih =>
    rw [List.mem_cons, not_or] at hb
    cases l with
    | nil => exact absurd (List.cons_prefix_cons.mp h).1 hb.1
    | cons b' l =>
      obtain ⟨rfl, hrest⟩ := List.cons_prefix_cons.mp h
      obtain ⟨l', rfl, hl'⟩ := ih hrest hb.2
      exact ⟨l', rfl, hl'⟩

/-- Where `b` occurs once, what is in front of it is known. -/
theorem eq_of_part {k l rest : List β} {b : β} (h : l ++ [b] <+: k ++ b :: rest) (hk : b ∉ k)
    (hrest : b ∉ rest) : l = k := by
  obtain ⟨l', rfl, hl'⟩ := append_of_part h hk
  cases l' with
  | nil => exact List.append_nil k
  | cons b' l' =>
    obtain ⟨-, hlast⟩ := List.cons_prefix_cons.mp hl'
    exact absurd (hlast.subset (List.mem_append_right l' (List.mem_singleton_self b))) hrest

end Select

/-! ## What a program performs -/

/-- The program adds events to the trace: behind it `f` has picked `l` from them, and where it stops
a prefix of `l`. -/
def Performs (trace : σ → List ε) (f : List ε → ε → Option β) (l : List β) (p : Prog σ α) : Prop :=
  ∀ s, match p.run s with
    | .ok _ s' => ∃ es, trace s' = trace s ++ es ∧ select f (trace s) es = l
    | .error _ s' => ∃ es, trace s' = trace s ++ es ∧ select f (trace s) es <+: l

/-- As `Performs`, from a state in `P`, and what is returned then holds. -/
def Tracks (trace : σ → List ε) (f : List ε → ε → Option β) (P : σ → Prop) (l : List β)
    (p : Prog σ α) (Q : α → σ → Prop) : Prop :=
  ∀ s, P s → match p.run s with
    | .ok a s' => Q a s' ∧ ∃ es, trace s' = trace s ++ es ∧ select f (trace s) es = l
    | .error _ s' => ∃ es, trace s' = trace s ++ es ∧ select f (trace s) es <+: l

section Tracks

variable {trace : σ → List ε} {f : List ε → ε → Option β} {l l' : List β} {p : Prog σ α}
  {g : α → Prog σ α'} {P : σ → Prop} {Q : α → σ → Prop} {R : α' → σ → Prop}

/-- A program that performs a script tracks it under every precondition. -/
theorem Performs.tracks (hp : Performs trace f l p)
    (hQ : ∀ s a s', P s → p.run s = .ok a s' → Q a s') : Tracks trace f P l p Q := by
  intro s hs
  have h := hp s
  cases hrun : p.run s with
  | ok a s' =>
    rw [hrun] at h
    exact ⟨hQ s a s' hs hrun, h⟩
  | error e s' =>
    rw [hrun] at h
    exact h

/-- Tracking from every state is performing. -/
theorem Tracks.performs (hp : Tracks trace f (fun _ => True) l p Q) : Performs trace f l p := by
  intro s
  have h := hp s trivial
  cases hrun : p.run s with
  | ok a s' =>
    rw [hrun] at h
    exact h.2
  | error e s' =>
    rw [hrun] at h
    exact h

/-- The rule of composition: the script of a sequence is that of its halves. -/
theorem Tracks.bind (hp : Tracks trace f P l p Q) (hg : ∀ a, Tracks trace f (Q a) l' (g a) R) :
    Tracks trace f P (l ++ l') (p >>= g) R := by
  intro s hs
  have h := hp s hs
  -- the second half goes on from where the first one has returned
  rw [EStateM.run_bind]
  cases hrun : p.run s with
  | ok a s₁ =>
    rw [hrun] at h
    obtain ⟨hQ, es, htrace, rfl⟩ := h
    have h' := hg a s₁ hQ
    dsimp only
    cases hrun' : (g a).run s₁ with
    | ok a' s₂ =>
      rw [hrun'] at h'
      obtain ⟨hR, es', htrace', rfl⟩ := h'
      refine ⟨hR, es ++ es', ?_, ?_⟩
      · rw [htrace', htrace, List.append_assoc]
      · rw [select_append, htrace]
    | error e s₂ =>
      rw [hrun'] at h'
      obtain ⟨es', htrace', hpart⟩ := h'
      refine ⟨es ++ es', ?_, ?_⟩
      · rw [htrace', htrace, List.append_assoc]
      · rw [select_append, ← htrace]
        exact (List.prefix_append_right_inj _).mpr hpart
  | error e s₁ =>
    rw [hrun] at h
    obtain ⟨es, htrace, hpart⟩ := h
    exact ⟨es, htrace, hpart.trans (List.prefix_append _ _)⟩

/-- A first part that performs nothing. -/
theorem Tracks.skip (hp : Tracks trace f P [] p Q) (hg : ∀ a, Tracks trace f (Q a) l (g a) R) :
    Tracks trace f P l (p >>= g) R := hp.bind hg

end Tracks

section Performs

variable {trace : σ → List ε} {f : List ε → ε → Option β} {l l' : List β} {p : Prog σ α}
  {g : α → Prog σ α'}

/-- A program that leaves the trace alone performs nothing. -/
theorem performs_nil_of_eq (h : ∀ s, trace (final (p.run s)) = trace s) :
    Performs trace f [] p := by
  intro s
  have hs := h s
  cases hrun : p.run s with
  | ok a s' =>
    rw [hrun] at hs
    exact ⟨[], by rw [List.append_nil]; exact hs, rfl⟩
  | error e s' =>
    rw [hrun] at hs
    exact ⟨[], by rw [List.append_nil]; exact hs, List.nil_prefix⟩

/-- A program that changes nothing performs nothing. -/
theorem performs_of_inert (h : Inert p) : Performs trace f [] p :=
  performs_nil_of_eq fun s => congrArg trace (h s)

theorem performs_pure (a : α) : Performs trace f [] (pure a : Prog σ α) :=
  performs_nil_of_eq fun _ => rfl

theorem performs_get : Performs trace f [] (get : Prog σ σ) := performs_nil_of_eq fun _ => rfl

theorem performs_modify {h : σ → σ} (htrace : ∀ s, trace (h s) = trace s) :
    Performs trace f [] (modify h : Prog σ PUnit) := performs_nil_of_eq htrace

/-- A program that only stops performs any list, as it does not return. -/
theorem performs_throw (e : Stop) : Performs trace f l (throw e : Prog σ α) :=
  fun _ => ⟨[], (List.append_nil _).symm, List.nil_prefix⟩

/-- An `assert` performs nothing. -/
theorem performs_assert (c : Prop) [Decidable c] :
    Performs trace f [] (assert c : Prog σ Unit) := by
  apply performs_nil_of_eq
  intro s
  rw [run_assert]
  split <;> rfl

/-- A sequence performs the scripts of its halves. -/
theorem Performs.bind (hp : Performs trace f l p) (hg : ∀ a, Performs trace f l' (g a)) :
    Performs trace f (l ++ l') (p >>= g) :=
  ((hp.tracks fun _ _ _ _ _ => trivial).bind fun a => (hg a).tracks fun _ _ _ _ _ =>
    trivial : Tracks trace f (fun _ => True) _ _ fun _ _ => True).performs

/-- A first part that performs nothing. -/
theorem Performs.skip (hp : Performs trace f [] p) (hg : ∀ a, Performs trace f l (g a)) :
    Performs trace f l (p >>= g) := hp.bind hg

/-- A last part that performs nothing. -/
theorem Performs.skip_last (hp : Performs trace f l p) (hg : ∀ a, Performs trace f [] (g a)) :
    Performs trace f l (p >>= g) := by
  have h := hp.bind hg
  rwa [List.append_nil] at h

/-- Two branches with the same script. -/
theorem Performs.ite {c : Prop} [Decidable c] {q : Prog σ α} (hp : Performs trace f l p)
    (hq : Performs trace f l q) : Performs trace f l (if c then p else q) := by
  by_cases hc : c
  · rwa [if_pos hc]
  · rwa [if_neg hc]

/-- A loop whose rounds perform nothing performs nothing. -/
theorem Performs.loop {body : α → Prog σ (α ⊕ α')} (h : ∀ a, Performs trace f [] (body a)) (n : ℕ)
    (a : α) : Performs trace f [] (loop body n a) := by
  induction n generalizing a with
  | zero => exact performs_throw _
  | succ n ih =>
    refine (h a).skip fun r => ?_
    rcases r with a' | b
    · exact ih a'
    · exact performs_pure b

/-- A round of a loop performs the list if it is the last one, and nothing if it asks for another
one. -/
def LastPerforms (trace : σ → List ε) (f : List ε → ε → Option β) (l : List β)
    (round : Prog σ (α ⊕ α')) : Prop :=
  ∀ s, match round.run s with
    | .ok r s' => ∃ es, trace s' = trace s ++ es ∧
        select f (trace s) es = if r.isRight then l else []
    | .error _ s' => ∃ es, trace s' = trace s ++ es ∧ select f (trace s) es <+: l

/-- A loop performs what its last round performs. -/
theorem LastPerforms.loop {body : α → Prog σ (α ⊕ α')}
    (h : ∀ a, LastPerforms trace f l (body a)) (n : ℕ) (a : α) :
    Performs trace f l (loop body n a) := by
  induction n generalizing a with
  | zero => exact performs_throw _
  | succ n ih =>
    intro s
    have hround := h a s
    cases hrun : (body a).run s with
    | error e s₁ =>
      rw [hrun] at hround
      rw [run_loop_of_error hrun]
      exact hround
    | ok r s₁ =>
      rw [hrun] at hround
      obtain ⟨es, htrace, hes⟩ := hround
      cases r with
      | inr b =>
        rw [run_loop_of_done hrun]
        exact ⟨es, htrace, hes⟩
      | inl a' =>
        -- nothing is picked from this round, so the rest decides
        have hrest := ih a' s₁
        rw [run_loop_of_next hrun]
        have hselect (es' : List ε) :
            select f (trace s) (es ++ es') = select f (trace s₁) es' := by
          rw [select_append, hes, htrace]
          rfl
        cases hrun' : (CProg.loop body n a').run s₁ with
        | ok b s₂ =>
          rw [hrun'] at hrest
          obtain ⟨es', htrace', hes'⟩ := hrest
          refine ⟨es ++ es', ?_, (hselect es').trans hes'⟩
          rw [htrace', htrace, List.append_assoc]
        | error e s₂ =>
          rw [hrun'] at hrest
          obtain ⟨es', htrace', hes'⟩ := hrest
          refine ⟨es ++ es', ?_, (hselect es').symm ▸ hes'⟩
          rw [htrace', htrace, List.append_assoc]

/-- A row of programs performs their scripts in a row. -/
theorem Performs.forM {as : List α} {body : α → Prog σ PUnit} {g : α → List β}
    (h : ∀ a, Performs trace f (g a) (body a)) :
    Performs trace f (as.flatMap g) (as.forM body) := by
  induction as with
  | nil => exact performs_pure _
  | cons a as ih => exact (h a).bind fun _ => ih

/-- A program on a part of the state that holds the trace. -/
theorem Performs.zoom {trace' : τ → List ε} {get : σ → τ} {set : τ → σ → σ} {p : Prog τ α}
    (hp : Performs trace' f l p) (hget : ∀ s, trace' (get s) = trace s)
    (hset : ∀ t s, trace (set t s) = trace' t) : Performs trace f l (zoom get set p) := by
  intro s
  have h := hp (get s)
  cases hrun : p.run (get s) with
  | ok a t =>
    rw [hrun] at h
    rw [run_zoom_of_ok hrun]
    rw [hget] at h
    dsimp only
    rw [hset]
    exact h
  | error e t =>
    rw [hrun] at h
    rw [run_zoom_of_error hrun]
    rw [hget] at h
    dsimp only
    rw [hset]
    exact h

/-- A program on a part of the state that does not hold the trace. -/
theorem performs_zoom_nil {get : σ → τ} {set : τ → σ → σ} (p : Prog τ α)
    (hset : ∀ t s, trace (set t s) = trace s) : Performs trace f [] (zoom get set p) := by
  apply performs_nil_of_eq
  intro s
  cases hrun : p.run (get s) with
  | ok a t =>
    rw [run_zoom_of_ok hrun]
    exact hset t s
  | error e t =>
    rw [run_zoom_of_error hrun]
    exact hset t s

/-- A program that performs nothing performs nothing that is picked from less. -/
theorem Performs.nil_of {γ : Type} {h : List ε → ε → Option γ} (hp : Performs trace f [] p)
    (hf : ∀ past e, f past e = none → h past e = none) : Performs trace h [] p := by
  intro s
  have hadds := hp s
  cases hrun : p.run s with
  | ok a s' =>
    rw [hrun] at hadds
    obtain ⟨es, htrace, hnone⟩ := hadds
    exact ⟨es, htrace, select_eq_nil_of hf hnone⟩
  | error e s' =>
    rw [hrun] at hadds
    obtain ⟨es, htrace, hnone⟩ := hadds
    have hselect : select h (trace s) es = [] := select_eq_nil_of hf (List.prefix_nil.mp hnone)
    exact ⟨es, htrace, hselect ▸ List.nil_prefix⟩

/-- What holds of the events of a kind is kept by a program that adds none of them. -/
theorem Performs.keeps {γ : Type} {h : List ε → ε → Option γ} {A : List γ → Prop}
    (hp : Performs trace f l p) (hnone : Performs trace h [] p) :
    Tracks trace f (fun s => A (select h [] (trace s))) l p
      (fun _ s => A (select h [] (trace s))) := by
  refine hp.tracks fun s a s' hs hrun => ?_
  have hadds := hnone s
  rw [hrun] at hadds
  obtain ⟨es, htrace, hes⟩ := hadds
  rw [htrace, select_append, List.nil_append, hes, List.append_nil]
  exact hs

/-- However a run ends, a prefix of the list has been performed at any moment of it. -/
theorem Performs.prefix_of_run (hp : Performs trace f l p) {s : σ} (hs : trace s = [])
    {es : List ε} (hes : es <+: trace (final (p.run s))) : select f [] es <+: l := by
  have h := hp s
  cases hrun : p.run s with
  | ok a s' =>
    rw [hrun] at h hes
    obtain ⟨es', htrace, rfl⟩ := h
    rw [hs, List.nil_append] at htrace
    rw [hs, ← htrace]
    exact select_mono hes
  | error e s' =>
    rw [hrun] at h hes
    obtain ⟨es', htrace, hinit⟩ := h
    rw [hs, List.nil_append] at htrace
    rw [hs, ← htrace] at hinit
    exact (select_mono hes).trans hinit

/-- A run from an empty trace that returns has performed the whole script. -/
theorem Performs.of_ok (hp : Performs trace f l p) {s s' : σ} {a : α} (hs : trace s = [])
    (hrun : p.run s = .ok a s') : select f [] (trace s') = l := by
  have h := hp s
  rw [hrun] at h
  obtain ⟨es, htrace, hselect⟩ := h
  rw [hs, List.nil_append] at htrace
  rw [htrace, ← hselect, hs]

end Performs

end Traces
