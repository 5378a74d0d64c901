import RedisClone.Lib.Exec

/-! # Two runs in step

`Lockstep R x`: from `R`-related states the computation `x` ends with the same fault, or with the same result in
`R`-related states.  It is a class, with an instance for every way a computation is put together, so that a
computation without a case distinction on a result is in lockstep by instance search.  `SameView R f` and
`Parallel R f` say so of what is read of a state and of a change to it.
-/

namespace Exec

variable {σ ε α β : Type} {R : σ → σ → Prop}

/-- Two ends with the same fault, or with the same result in related states. -/
inductive Alike (R : σ → σ → Prop) : Except ε (α × σ) → Except ε (α × σ) → Prop where
  | ok {s t : σ} (a : α) (related : R s t) : Alike R (.ok (a, s)) (.ok (a, t))
  | error (e : ε) : Alike R (.error e) (.error e)

/-- From related states the computation ends alike. -/
class Lockstep (R : σ → σ → Prop) (x : Exec σ ε α) : Prop where
  run : ∀ s t, R s t → Alike R (x s) (x t)

/-- Related states have the same part. -/
class SameView (R : σ → σ → Prop) (f : σ → α) : Prop where
  same : ∀ s t, R s t → f s = f t

/-- The change keeps states related. -/
class Parallel (R : σ → σ → Prop) (f : σ → σ) : Prop where
  keeps : ∀ s t, R s t → R (f s) (f t)

/-! ## Ends -/

theorem Alike.bind {x x' : Except ε (α × σ)} {f g : α → Exec σ ε β} (first : Alike R x x')
    (rest : ∀ a s t, R s t → Alike R (f a s) (g a t)) :
    Alike R (x.bind fun p => f p.1 p.2) (x'.bind fun p => g p.1 p.2) := by
  cases first with
  | ok a related => exact rest a _ _ related
  | error e => exact .error e

/-- Sequencing of two different computations. -/
theorem Alike.seq {x y : Exec σ ε α} {f g : α → Exec σ ε β} {s t : σ} (first : Alike R (x s) (y t))
    (rest : ∀ a u v, R u v → Alike R (f a u) (g a v)) : Alike R ((x >>= f) s) ((y >>= g) t) :=
  first.bind rest

/-- The first end is a normal one, and so is the second. -/
theorem Alike.ok_iff {x x' : Except ε (α × σ)} (alike : Alike R x x') {a : α} {s : σ} (normal : x = .ok (a, s)) :
    ∃ t, x' = .ok (a, t) ∧ R s t := by
  cases alike with
  | ok b related =>
    obtain ⟨rfl, rfl⟩ := Prod.mk.inj (Except.ok.inj normal)
    exact ⟨_, rfl, related⟩
  | error e => simp at normal

theorem Alike.error_iff {x x' : Except ε (α × σ)} (alike : Alike R x x') (e : ε) : x = .error e ↔ x' = .error e := by
  cases alike with
  | ok a related => simp
  | error e' => simp

/-! ## Computations -/

instance lockstep_pure (a : α) : Lockstep R (pure a : Exec σ ε α) :=
  ⟨fun _ _ related => .ok a related⟩

instance lockstep_fault (e : ε) : Lockstep R (fault e : Exec σ ε α) :=
  ⟨fun _ _ _ => .error e⟩

instance lockstep_bind {x : Exec σ ε α} {f : α → Exec σ ε β} [first : Lockstep R x]
    [rest : ∀ a, Lockstep R (f a)] : Lockstep R (x >>= f) :=
  ⟨fun s t related => (first.run s t related).seq fun a u v => (rest a).run u v⟩

/-- Sequencing, for a second part that takes cases on the result of the first. -/
theorem Lockstep.bind {x : Exec σ ε α} {f : α → Exec σ ε β} (first : Lockstep R x)
    (rest : ∀ a, Lockstep R (f a)) : Lockstep R (x >>= f) :=
  lockstep_bind

instance lockstep_map {x : Exec σ ε α} (f : α → β) [Lockstep R x] : Lockstep R (f <$> x) := by
  rw [← bind_pure_comp]
  infer_instance

instance lockstep_ite {c : Prop} [Decidable c] {x y : Exec σ ε α} [Lockstep R x] [Lockstep R y] :
    Lockstep R (if c then x else y) := by
  split
  · infer_instance
  · infer_instance

instance lockstep_dite {c : Prop} [Decidable c] {x : c → Exec σ ε α} {y : ¬ c → Exec σ ε α}
    [whenTrue : ∀ holds, Lockstep R (x holds)] [whenFalse : ∀ fails, Lockstep R (y fails)] :
    Lockstep R (if holds : c then x holds else y holds) := by
  by_cases holds : c
  · rw [dif_pos holds]
    exact whenTrue holds
  · rw [dif_neg holds]
    exact whenFalse holds

instance lockstep_onlyIf {c : Prop} [Decidable c] {x : Exec σ ε Unit} [Lockstep R x] :
    Lockstep R (onlyIf c x) := by
  unfold onlyIf
  infer_instance

instance lockstep_forM (items : List β) {body : β → Exec σ ε PUnit} [each : ∀ item, Lockstep R (body item)] :
    Lockstep R (forM items body) := by
  induction items with
  | nil => exact lockstep_pure _
  | cons item items inductionHypothesis =>
    rw [List.forM_cons]
    exact lockstep_bind

instance lockstep_observe (f : σ → α) [view : SameView R f] : Lockstep R (observe f : Exec σ ε α) where
  run s t related := by
    rw [observe_run, observe_run, view.same s t related]
    exact .ok _ related

instance lockstep_draw (f : σ → α) (g : σ → σ) [view : SameView R f] [parallel : Parallel R g] :
    Lockstep R (draw f g : Exec σ ε α) where
  run s t related := by
    rw [draw_run, draw_run, view.same s t related]
    exact .ok _ (parallel.keeps s t related)

instance lockstep_alter (f : σ → σ) [parallel : Parallel R f] : Lockstep R (alter f : Exec σ ε Unit) where
  run s t related := by
    rw [alter_run, alter_run]
    exact .ok () (parallel.keeps s t related)

end Exec
