import RedisClone.Lib.Exec

/-! # Relations that runs keep to, by instance search

`Preserves R x`: every normal end of `x` is `R`-related to its start.  Where `R` is `Cumulative`, that is
reflexive and transitive, there is an instance for every way a computation is put together, so that a
computation without a case distinction on a result is done by instance search.
-/

namespace Exec

variable {σ ε α β : Type} {R : σ → σ → Prop}

/-- The relation composes along a run. -/
class Cumulative (R : σ → σ → Prop) : Prop where
  composes : Composes R

/-- A normal end is related to the start. -/
class Preserves (R : σ → σ → Prop) (x : Exec σ ε α) : Prop where
  run : ∀ s a t, x s = .ok (a, t) → R s t

/-- The change leads to a related state. -/
class Allows (R : σ → σ → Prop) (f : σ → σ) : Prop where
  allows : ∀ s, R s (f s)

theorem Preserves.mono {R' : σ → σ → Prop} {x : Exec σ ε α} [preserves : Preserves R x]
    (related : ∀ s t, R s t → R' s t) : Preserves R' x :=
  ⟨fun s a t run => related s t (preserves.run s a t run)⟩

theorem Preserves.of_obeys {F : ε → Prop} {x : Exec σ ε α} (obeys : Obeys R F x) : Preserves R x :=
  ⟨fun s a t run => (obeys s).1 a t run⟩

theorem Preserves.obeys {x : Exec σ ε α} (preserves : Preserves R x) : Obeys R (fun _ => True) x :=
  fun s => ⟨fun a t run => preserves.run s a t run, fun _ _ => trivial⟩

instance preserves_fault (e : ε) : Preserves R (fault e : Exec σ ε α) :=
  ⟨fun _ _ _ run => by simp at run⟩

section Cumulative

variable [cumulative : Cumulative R]

instance preserves_pure (a : α) : Preserves R (pure a : Exec σ ε α) :=
  .of_obeys (F := fun _ => True) (Obeys.pure cumulative.composes a)

instance preserves_observe (f : σ → α) : Preserves R (observe f : Exec σ ε α) :=
  .of_obeys (F := fun _ => True) (Obeys.observe cumulative.composes f)

instance preserves_lift (x : Except ε α) : Preserves R (lift x : Exec σ ε α) :=
  .of_obeys (F := fun _ => True) (Obeys.lift cumulative.composes fun _ _ => trivial)

instance preserves_bind {x : Exec σ ε α} {f : α → Exec σ ε β} [first : Preserves R x]
    [rest : ∀ a, Preserves R (f a)] : Preserves R (x >>= f) :=
  .of_obeys (Obeys.bind cumulative.composes first.obeys fun a _ => (rest a).obeys)

/-- Sequencing, for a second part that takes cases on the result of the first. -/
theorem Preserves.bind {x : Exec σ ε α} {f : α → Exec σ ε β} (first : Preserves R x)
    (rest : ∀ a, Preserves R (f a)) : Preserves R (x >>= f) :=
  preserves_bind

instance preserves_map {x : Exec σ ε α} (f : α → β) [Preserves R x] : Preserves R (f <$> x) := by
  rw [← bind_pure_comp]
  infer_instance

instance preserves_forM (items : List β) {body : β → Exec σ ε PUnit} [each : ∀ item, Preserves R (body item)] :
    Preserves R (forM items body) :=
  .of_obeys (Obeys.forM cumulative.composes items fun item _ => (each item).obeys)

instance preserves_onlyIf {c : Prop} [Decidable c] {x : Exec σ ε Unit} [preserves : Preserves R x] :
    Preserves R (onlyIf c x) :=
  .of_obeys (Obeys.onlyIf cumulative.composes fun _ => preserves.obeys)

end Cumulative

instance preserves_ite {c : Prop} [Decidable c] {x y : Exec σ ε α} [Preserves R x] [Preserves R y] :
    Preserves R (if c then x else y) := by
  split
  · infer_instance
  · infer_instance

instance preserves_dite {c : Prop} [Decidable c] {x : c → Exec σ ε α} {y : ¬ c → Exec σ ε α}
    [whenTrue : ∀ holds, Preserves R (x holds)] [whenFalse : ∀ fails, Preserves R (y fails)] :
    Preserves R (if holds : c then x holds else y holds) := by
  split
  · infer_instance
  · infer_instance

instance preserves_draw (f : σ → α) (g : σ → σ) [allowed : Allows R g] : Preserves R (draw f g : Exec σ ε α) :=
  .of_obeys (F := fun _ => True) (Obeys.draw allowed.allows)

instance preserves_alter (f : σ → σ) [allowed : Allows R f] : Preserves R (alter f : Exec σ ε Unit) :=
  .of_obeys (F := fun _ => True) (Obeys.alter allowed.allows)

end Exec
